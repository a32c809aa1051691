import Pinout.Proofs.Pattern.WholeWord
import Pinout.Proofs.Verilog.Extracted
import Pinout.Proofs.Verilog.ParameterScan
import Pinout.Proofs.Verilog.PortScan

/-! # Reading a written text

What a reader of modules makes of a part of a text, wherever the part stands: what is left of it without
comments, that no port is found in it and which parameters are found. Names are passed over because of
the mark behind them, and fixed words because they are none of the keywords.
-/

namespace Pinout.Verilog

variable {before : Option Char} {c : Char} {g s t v w x x' y y' : Text} {gs gs' : List Generic}

def parameterWord : Pattern :=
  .wholeWord (.exactly "parameter")

theorem portPattern_ledBy : portPattern.LedBy (.keyword "input" <|> .keyword "output" <|> .keyword "inout") where
  words := (Pattern.readsWords_keyword (by decide) (by decide)).orElse
    ((Pattern.readsWords_keyword (by decide) (by decide)).orElse
      (Pattern.readsWords_keyword (by decide) (by decide)))
  refuses _ _ := refuses_of_directionWord

theorem parameterPattern_ledBy : parameterPattern.LedBy (.exactly "parameter") := by
  have words : (Pattern.exactly "parameter").ReadsWords := Pattern.readsWords_exactly (by decide) (by decide)
  refine Pattern.ledBy_gap words (.repeated parameterType ++ packedTail) fun before t => ?_
  rw [readings_parameterPattern]

/-- The marks that stand behind a name in what is written for a module. -/
def marks : List Char :=
  [';', '(', ')', '=', '#']

theorem portPattern_deadAt (h : c ∈ marks) : portPattern.DeadAt c := by
  intro before w g s word blank
  have plain : ∀ c ∈ marks, Text.isWord c = false ∧ Text.isBlank c = false ∧ typeTail.opens c = false := by
    decide +kernel
  obtain ⟨noWord, visible, closed⟩ := plain c h
  refine refuses_portPattern fun keyword known => ?_
  have letters : ∀ keyword ∈ ["input", "output", "inout"].map String.toList,
      (∀ letter ∈ keyword, Pattern.isKeyLetter letter = true) ∧ keyword ≠ [] := by decide
  refine Pattern.refuses_keyword_append (letters keyword known).1 (letters keyword known).2 word
    (Pattern.stops_gap blank (.inr (Pattern.stops_cons.mpr noWord))) fun _ => ?_
  exact Pattern.refuses_many_run blank (Pattern.stops_cons.mpr visible) rfl typeTail_skipsBlanks.closed
    (Pattern.refuses_of_stops rfl (Pattern.stops_cons.mpr closed))

theorem typedName_skipsBlanks : (.repeated parameterType ++ packedTail : Pattern).SkipsBlanks where
  reads := rfl
  closed _ := Text.forall_blank (fun c => (.repeated parameterType ++ packedTail : Pattern).opens c = false)
    (by decide +kernel)

theorem parameterPattern_deadAt (h : c ∈ marks) : parameterPattern.DeadAt c := by
  intro before w g s word blank
  have plain : ∀ c ∈ marks, Text.isWord c = false ∧ Text.isBlank c = false ∧
      (.repeated parameterType ++ packedTail : Pattern).opens c = false := by
    decide +kernel
  obtain ⟨noWord, visible, closed⟩ := plain c h
  refine refuses_parameterPattern (Pattern.refuses_exactly_gap_append (by decide) word
    (Pattern.stops_gap blank (.inr (Pattern.stops_cons.mpr noWord))) fun _ => ?_)
  exact Pattern.refuses_atLeastOne_run blank (Pattern.stops_cons.mpr visible) rfl typedName_skipsBlanks.closed
    (Pattern.refuses_of_stops rfl (Pattern.stops_cons.mpr closed))

/-- The parameter that a reading of the parameter pattern declares. -/
def genericOfReading (r : Reading) : Generic where
  name := r.group 1
  default := some (trimValue (r.group 2))

/-- The parameters that are found between `before` and the end of the text. -/
def genericsBehind (before : Option Char) (t : Text) : List Generic :=
  (parameterPattern.scan before t).map genericOfReading

theorem generics_eq_genericsBehind (source : Text) :
    generics source = genericsBehind none (stripComments source) := by
  rw [generics, genericsBehind, ← Pattern.reading_findAll, List.map_map]
  refine List.map_congr_left fun found _ => ?_
  simp only [Function.comp_apply, genericOf, genericOfReading, Match.group_reading]

/-- In the text no comment and no port begins, wherever it stands. -/
structure Passive (x : Text) : Prop where
  comment : commentPattern.Passes x
  block : (Pattern.exactly ['/', '*']).Passes x
  port : portPattern.Passes x

/-- Wherever the part `x` of a text stands, it is `y` without comments, in which no comment and no port
begins and the parameters `gs` are found. -/
structure Rereads (x y : Text) (gs : List Generic) : Prop where
  strips : commentPattern.Rewrites lineFeeds x y
  passive : Passive y
  parameters : ∀ before s, genericsBehind before (y ++ s) = gs ++ genericsBehind (lastOf before y) s

theorem Passive.append (first : Passive x) (second : Passive y) : Passive (x ++ y) where
  comment := first.comment.append second.comment
  block := first.block.append second.block
  port := first.port.append second.port

theorem Passive.rereads (h : Passive x) (parameter : parameterPattern.Passes x) : Rereads x x [] where
  strips := h.comment.rewrites
  passive := h
  parameters before s := by rw [genericsBehind, Pattern.scan_of_quiet (parameter before s)]; rfl

theorem Rereads.nil : Rereads [] [] [] where
  strips := Pattern.rewrites_nil
  passive := ⟨Pattern.passes_nil _, Pattern.passes_nil _, Pattern.passes_nil _⟩
  parameters _ _ := rfl

theorem Rereads.append (first : Rereads x y gs) (second : Rereads x' y' gs') :
    Rereads (x ++ x') (y ++ y') (gs ++ gs') where
  strips := first.strips.append second.strips
  passive := first.passive.append second.passive
  parameters before s := by
    rw [List.append_assoc, first.parameters, second.parameters, lastOf_append, List.append_assoc]

/-- The text holds no keyword of a declaration. -/
structure KeywordFree (x : Text) : Prop where
  direction : directionWord.search? x = none
  parameter : parameterWord.search? x = none

instance (x : Text) : Decidable (KeywordFree x) :=
  decidable_of_iff ((directionWord.search? x).isNone ∧ (parameterWord.search? x).isNone)
    ⟨fun ⟨direction, parameter⟩ => ⟨Option.isNone_iff_eq_none.mp direction, Option.isNone_iff_eq_none.mp parameter⟩,
      fun ⟨direction, parameter⟩ => ⟨Option.isNone_iff_eq_none.mpr direction, Option.isNone_iff_eq_none.mpr parameter⟩⟩

theorem rereads_plain (free : CommentFree x) (keywords : KeywordFree x) (line : c ≠ '/') (block : c ≠ '*')
    (plain : Text.isWord c = false) : Rereads (x ++ [c]) (x ++ [c]) [] := by
  have comment : commentPattern.Passes (x ++ [c]) := fun before s =>
    (free.quiet (Pattern.stops_cons.mpr (by simp [line, block]))).append
      (Pattern.passes_of_closed rfl (x := [c]) (by simpa using opens_commentPattern line) _ s)
  refine Passive.rereads ⟨comment, Pattern.passes_exactly_pair free.2 line block,
    portPattern_ledBy.passes_of_search? keywords.direction plain⟩ ?_
  exact parameterPattern_ledBy.passes_of_search? keywords.parameter plain

theorem passes_of_no_slash (h : '/' ∉ x) :
    commentPattern.Passes x ∧ (Pattern.exactly ['/', '*']).Passes x := by
  have differs : ∀ d ∈ x, d ≠ '/' := by
    rintro d hd rfl
    exact h hd
  refine ⟨Pattern.passes_of_closed rfl fun d hd => opens_commentPattern (differs d hd),
    Pattern.passes_of_closed rfl fun d hd => ?_⟩
  simp [Pattern.exactly, Pattern.char, Pattern.opens, Pattern.nullable, differs d hd]

theorem rereads_separator (word : ∀ d ∈ x, Text.isWord d = false) (slash : '/' ∉ x) : Rereads x x [] :=
  have comments := passes_of_no_slash slash
  Passive.rereads ⟨comments.1, comments.2, portPattern_ledBy.passes_plain word⟩
    (parameterPattern_ledBy.passes_plain word)

/-- A name is passed over because of the mark behind it. -/
theorem rereads_name (word : ∀ d ∈ w, Text.isWord d = true) (blank : ∀ d ∈ g, Text.isBlank d = true)
    (h : c ∈ marks) : Rereads (w ++ (g ++ [c])) (w ++ (g ++ [c])) [] := by
  have plain : ∀ c ∈ marks, Text.isWord c = false ∧ '/' ≠ c := by decide
  obtain ⟨noWord, noSlash⟩ := plain c h
  have slash : '/' ∉ w ++ (g ++ [c]) := by
    simp only [List.mem_append, List.mem_singleton, not_or]
    exact ⟨fun hd => absurd (word _ hd) (by decide), fun hd => absurd (blank _ hd) (by decide), noSlash⟩
  have comments := passes_of_no_slash slash
  exact Passive.rereads
    ⟨comments.1, comments.2, portPattern_ledBy.passes_word (portPattern_deadAt h) word blank noWord⟩
    (parameterPattern_ledBy.passes_word (parameterPattern_deadAt h) word blank noWord)

theorem rereads_comment (inline : '\n' ∉ x) : Rereads ("//".toList ++ (x ++ ['\n'])) ['\n'] [] := by
  have lineFeed := rereads_separator (x := ['\n']) (by decide) (by decide)
  refine ⟨fun before s => ?_, lineFeed.passive, lineFeed.parameters⟩
  have takes : commentPattern.Takes before ("//".toList ++ x) [] ('\n' :: s) :=
    takes_lineComment inline (Pattern.stops_cons.mpr rfl)
  have none : lineFeeds ("//".toList ++ x) = [] := by
    refine List.filter_eq_nil_iff.mpr fun c hc => ?_
    rw [beq_iff_eq]
    rintro rfl
    rcases List.mem_append.mp hc with hc | hc
    · exact absurd hc (by decide)
    · exact inline hc
  have passed := lineFeed.strips (lastOf before ("//".toList ++ x)) s
  rw [List.singleton_append] at passed
  rw [List.append_assoc, List.append_assoc, List.singleton_append, ← List.append_assoc,
    Pattern.rewrite_of_takes takes (by simp), none, List.nil_append, passed]
  simp

end Pinout.Verilog
