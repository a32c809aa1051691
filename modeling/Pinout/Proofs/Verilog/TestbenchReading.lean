import Pinout.Proofs.Text.Lines
import Pinout.Proofs.Verilog.ReadBack
import Pinout.Proofs.Verilog.Rereading
import Pinout.Verilog.Testbench

/-! # Testbenches read again

A testbench of a module is read as a module again: it has the name of the testbench, no ports, and the
parameters of the module with their defaults.
-/

namespace Pinout.Verilog

open Text

variable {code line n v w : Text} {unit : Interface} {g : Generic} {p : Port}

theorem rereads_lines {α : Type} {items : List α} {write : α → Text} {found : α → List Generic}
    (h : ∀ item ∈ items, Rereads (write item ++ ['\n']) (write item ++ ['\n']) (found item)) :
    Rereads ((items.map write).flatMap (· ++ ['\n'])) ((items.map write).flatMap (· ++ ['\n']))
      (items.flatMap found) := by
  induction items with
  | nil => exact .nil
  | cons item items ih =>
      rw [List.map_cons, List.flatMap_cons, List.flatMap_cons]
      exact (h item (by simp)).append (ih fun item hi => h item (by simp [hi]))

theorem rereads_lineFeed : Rereads ['\n'] ['\n'] [] :=
  rereads_separator (by decide) (by decide)

def phrases : List Text :=
  ["", "`timescale 1ns / 1ps", "`timescale 1ns / 1ps\n", "module", "  reg", "  reg ", "  wire", "  wire ", "  );",
    "  ) uut (", "  initial begin", "0", "1", "    #100;", "    #10;", "  end", "endmodule"].map String.toList

theorem free_of_mem_phrases : ∀ x ∈ phrases, CommentFree x ∧ KeywordFree x := by
  decide +kernel

theorem rereads_phrase {x : Text} {c : Char} (h : x ∈ phrases) (differs : c ≠ '/' ∧ c ≠ '*') (plain : isWord c = false) :
    Rereads (x ++ [c]) (x ++ [c]) [] :=
  rereads_plain (free_of_mem_phrases x h).1 (free_of_mem_phrases x h).2 differs.1 differs.2 plain

theorem rereads_fixed (h : line ∈ phrases) : Rereads (line ++ ['\n']) (line ++ ['\n']) [] :=
  rereads_phrase h (by decide) (by decide)

theorem rereads_word_mark (name : n.IsName) {c : Char} (h : c ∈ marks) : Rereads (n ++ [c]) (n ++ [c]) [] :=
  rereads_name (g := []) name.word (by simp) h

theorem IsValue.exists_takes (value : IsValue code v) (s : Text) :
    ∃ u, (∀ before, valueTail.Takes before ([' '] ++ v) [(2, u)] (';' :: s)) ∧ trimValue u = v := by
  have ends : Pattern.Stops inValue (';' :: s) := Pattern.stops_cons.mpr (by decide)
  by_cases empty : v = []
  · subst empty
    refine ⟨[' '], fun before => takes_valueTail_space ends (Pattern.stops_cons.mpr (by decide)), by decide⟩
  · have all : ∀ c ∈ v, inValue c = true := fun c hc => by
      simpa [inValue, and_assoc] using value.unbroken c hc
    exact ⟨v, fun before => takes_valueTail (by decide) empty all (Text.ends_of_trim_eq_self value.trimmed).1 ends,
      value.neverCloses.trimValue_eq value.trimmed⟩

private theorem parameterLine_split (n v : Text) : parameterLine { name := n, default := some v } ++ ['\n'] =
    ("  parameter".toList ++ [' ']) ++ ((n ++ ([' '] ++ ['='])) ++ ([' '] ++ ((v ++ [';']) ++ ['\n']))) := by
  unfold parameterLine
  simp [textOrEmpty]

theorem passive_parameterLine (name : n.IsName) (free : CommentFree v) (keywords : KeywordFree v) :
    Passive (parameterLine { name := n, default := some v } ++ ['\n']) := by
  have head : Passive ("  parameter".toList ++ [' ']) := by
    have comments := passes_of_no_slash (x := "  parameter".toList ++ [' ']) (by decide)
    exact ⟨comments.1, comments.2, portPattern_ledBy.passes_of_search?
      (Option.isNone_iff_eq_none.mp (by decide)) (by decide)⟩
  have space : Rereads [' '] [' '] [] := rereads_separator (by decide) (by decide)
  have named : Rereads (n ++ ([' '] ++ ['='])) (n ++ ([' '] ++ ['='])) [] :=
    rereads_name name.word (by decide) (by decide)
  have written : Rereads (v ++ [';']) (v ++ [';']) [] := rereads_plain free keywords (by decide) (by decide) (by decide)
  rw [parameterLine_split]
  exact head.append (named.passive.append (space.passive.append (written.passive.append rereads_lineFeed.passive)))

theorem rereads_parameterLine (name : n.IsName) (value : IsValue code v) (free : CommentFree v)
    (keywords : KeywordFree v) :
    Rereads (parameterLine { name := n, default := some v } ++ ['\n'])
      (parameterLine { name := n, default := some v } ++ ['\n']) [{ name := n, default := some v }] := by
  have passive := passive_parameterLine name free keywords
  refine ⟨passive.comment.rewrites, passive, fun before s => ?_⟩
  obtain ⟨u, takes, cut⟩ := value.exists_takes ('\n' :: s)
  have read : parameterPattern.Takes (some ' ') ("parameter".toList ++ ([' '] ++ (n ++ ([' '] ++ (['='] ++ ([' '] ++ v))))))
      _ _ := takes_parameter_value ⟨n, name.nonempty, name.word⟩ (by decide) (by decide) (by decide) takes (by decide)
  have margin := Pattern.scan_of_quiet (parameterPattern_ledBy.passes_plain (x := "  ".toList) (by decide) before
    (("parameter".toList ++ ([' '] ++ (n ++ ([' '] ++ (['='] ++ ([' '] ++ v)))))) ++ (';' :: '\n' :: s)))
  have rest : ∀ before, parameterPattern.scan before ([';', '\n'] ++ s) = parameterPattern.scan (some '\n') s :=
    fun before => Pattern.scan_of_quiet (parameterPattern_ledBy.passes_plain (by decide) before s)
  have text : (parameterLine { name := n, default := some v } ++ ['\n']) ++ s = "  ".toList ++
      (("parameter".toList ++ ([' '] ++ (n ++ ([' '] ++ (['='] ++ ([' '] ++ v)))))) ++ (';' :: '\n' :: s)) := by
    rw [parameterLine_split]
    simp
  have outside : lastOf before "  ".toList = some ' ' := rfl
  have last : lastOf before (parameterLine { name := n, default := some v } ++ ['\n']) = some '\n' := lastOf_append _ _ _
  have found : genericOfReading ⟨"parameter".toList ++ ([' '] ++ (n ++ ([' '] ++ (['='] ++ ([' '] ++ v))))),
      [(2, u), (1, n)]⟩ = { name := n, default := some v } := by
    rw [← cut]
    rfl
  rw [text, genericsBehind, margin, outside, Pattern.scan_of_takes read (by simp), List.map_cons, found, last]
  exact congrArg (_ :: List.map genericOfReading ·) (rest _)

theorem rereads_signalLine (name : p.name.IsName) (range : p.width = some w) (free : CommentFree w)
    (keywords : KeywordFree w) : Rereads (signalLine p ++ ['\n']) (signalLine p ++ ['\n']) [] := by
  have kind : ∃ k ∈ ["  reg".toList, "  wire".toList], "  ".toList ++ signalKind p = k := by
    unfold signalKind
    split
    · exact ⟨_, by simp, rfl⟩
    · exact ⟨_, by simp, rfl⟩
  obtain ⟨k, known, front⟩ := kind
  have plain : ∀ k ∈ ["  reg".toList, "  wire".toList], k ∈ phrases ∧ k ++ [' '] ∈ phrases := by decide
  have head : Rereads (k ++ [' ']) (k ++ [' ']) [] := rereads_phrase (plain k known).1 (by decide) (by decide)
  have bracket : Rereads (k ++ [' '] ++ ['[']) (k ++ [' '] ++ ['[']) [] :=
    rereads_phrase (plain k known).2 (by decide) (by decide)
  have inside : Rereads (w ++ [']']) (w ++ [']']) [] :=
    rereads_plain free keywords (by decide) (by decide) (by decide)
  have space : Rereads [' '] [' '] [] := rereads_separator (by decide) (by decide)
  have tail : Rereads (p.name ++ [';'] ++ ['\n']) (p.name ++ [';'] ++ ['\n']) [] :=
    (rereads_word_mark name (by decide)).append rereads_lineFeed
  unfold signalLine signalRange
  split
  · have split : "  ".toList ++ signalKind p ++ [] ++ " ".toList ++ p.name ++ ";".toList ++ ['\n'] =
        (k ++ [' ']) ++ (p.name ++ [';'] ++ ['\n']) := by
      rw [front]
      simp
    rw [split]
    exact head.append tail
  · have split : "  ".toList ++ signalKind p ++ (" [".toList ++ textOrEmpty p.width ++ "]".toList) ++ " ".toList ++
        p.name ++ ";".toList ++ ['\n'] =
        (k ++ [' '] ++ ['[']) ++ ((w ++ [']']) ++ ([' '] ++ (p.name ++ [';'] ++ ['\n']))) := by
      rw [front, range]
      simp [textOrEmpty]
    rw [split]
    exact bracket.append (inside.append (space.append tail))

theorem rereads_assignment (name : p.name.IsName) {digit : Text} (known : digit ∈ phrases) :
    Rereads (assignment p digit ++ ['\n']) (assignment p digit ++ ['\n']) [] := by
  have margin : Rereads "    ".toList "    ".toList [] := rereads_separator (by decide) (by decide)
  have space : Rereads [' '] [' '] [] := rereads_separator (by decide) (by decide)
  have split : assignment p digit ++ ['\n'] =
      "    ".toList ++ ((p.name ++ ([' '] ++ ['='])) ++ ([' '] ++ ((digit ++ [';']) ++ ['\n']))) := by
    unfold assignment
    simp
  rw [split]
  exact margin.append ((rereads_name name.word (by decide) (by decide)).append (space.append
    ((rereads_phrase known (by decide) (by decide)).append rereads_lineFeed)))

theorem rereads_binding (name : n.IsName) {tail : Text} (ends : tail = [] ∨ tail = [',']) :
    Rereads ("  ".toList ++ (binding n n ++ tail) ++ ['\n']) ("  ".toList ++ (binding n n ++ tail) ++ ['\n']) [] := by
  have margin : Rereads "    .".toList "    .".toList [] := rereads_separator (by decide) (by decide)
  have tail' : Rereads (tail ++ ['\n']) (tail ++ ['\n']) [] := by
    rcases ends with rfl | rfl
    · exact rereads_separator (by decide) (by decide)
    · exact rereads_separator (by decide) (by decide)
  have split : "  ".toList ++ (binding n n ++ tail) ++ ['\n'] =
      "    .".toList ++ ((n ++ ['(']) ++ ((n ++ [')']) ++ (tail ++ ['\n']))) := by
    unfold binding
    simp
  rw [split]
  exact margin.append ((rereads_word_mark name (by decide)).append ((rereads_word_mark name (by decide)).append tail'))

theorem refuses_nameTail {before : Option Char} {g s : Text} {c : Char} (word : ∀ d ∈ w, isWord d = true)
    (blank : ∀ d ∈ g, isBlank d = true) (noWord : isWord c = false) (visible : isBlank c = false) (other : c ≠ '=') :
    nameTail.Refuses before (w ++ (g ++ c :: s)) := by
  have notBlank : ∀ d, isBlank d = true →
      (.char '=' ++ (.blanks ++ .group 2 (.atLeastOne inValue)) : Pattern).opens d = false := fun _ =>
    Text.forall_blank (fun d => (.char '=' ++ (.blanks ++ .group 2 (.atLeastOne inValue)) : Pattern).opens d = false)
      (by decide)
  have closed : ∀ d, isWord d = true →
      (.blanks ++ (.char '=' ++ (.blanks ++ .group 2 (.atLeastOne inValue))) : Pattern).opens d = false := by
    intro d hd
    have equals : d ≠ '=' := Text.ne_of_isWord hd (by decide)
    simp [Pattern.blanks, Pattern.char, Pattern.opens, Pattern.nullable, Text.not_isBlank_of_isWord hd, equals]
  rw [nameTail, Pattern.refuses_group_append]
  refine Pattern.refuses_atLeastOne_run word (Pattern.stops_gap blank (.inr (Pattern.stops_cons.mpr noWord))) rfl
    closed ?_
  refine Pattern.refuses_many_run blank (Pattern.stops_cons.mpr visible) rfl notBlank ?_
  exact Pattern.refuses_of_stops rfl (Pattern.stops_cons.mpr (by simp [Pattern.char, Pattern.opens, Pattern.nullable, other]))

/-- The label behind the name of a module is neither a type nor the name of a parameter. -/
theorem refuses_parameter_label {before : Option Char} {s : Text} (name : n.IsName) :
    parameterPattern.Refuses before (n ++ ([' '] ++ ("uut".toList ++ ([' '] ++ '(' :: s)))) := by
  refine refuses_parameterPattern (Pattern.refuses_exactly_gap_append (by decide) name.word
    (Pattern.stops_cons.mpr (by decide)) fun _ => ?_)
  refine Pattern.refuses_atLeastOne_run (by decide) (Pattern.stops_cons.mpr (by decide)) rfl
    typedName_skipsBlanks.closed ?_
  have untyped : ∀ before, parameterType.Refuses before ("uut".toList ++ ([' '] ++ '(' :: s)) := by
    refine fun before => Pattern.refuses_iff.mpr fun a ha => ?_
    obtain ⟨type, known, x, s'', split, -, apart, blank⟩ := mem_parameterType ha
    have words : ∀ type ∈ parameterTypes, ∀ c ∈ type, isWord c = true := by decide
    have uut : ∀ c ∈ "uut".toList, isWord c = true := by decide
    have same := (Pattern.run_unique split uut (Pattern.stops_cons.mpr (by decide)) (words type known)
      (Pattern.stops_gap blank (.inl apart))).1
    rw [same] at known
    exact absurd known (by decide)
  rw [Pattern.Refuses, Pattern.readings_repeated_append_of_dead fun a _ ha _ =>
    absurd ha (Pattern.refuses_iff.mp (untyped _) a)]
  refine Pattern.refuses_optional_append.mpr ⟨?_, ?_⟩
  · exact Pattern.refuses_of_stops rfl (Pattern.stops_cons.mpr (by decide))
  · exact refuses_nameTail (by decide) (by decide) (by decide) (by decide) (by decide)

/-- The name of a module in front of its label is passed over if it is no direction. -/
theorem rereads_labelled (name : n.IsName) (noDirection : directionWord.search? n = none) :
    Rereads (n ++ ([' '] ++ ("uut".toList ++ ([' '] ++ ['('])))) (n ++ ([' '] ++ ("uut".toList ++ ([' '] ++ ['('])))) [] := by
  have label : Rereads ("uut".toList ++ ([' '] ++ ['('])) ("uut".toList ++ ([' '] ++ ['('])) [] :=
    rereads_name (by decide) (by decide) (by decide)
  have slash : '/' ∉ n ++ [' '] := by
    simp only [List.mem_append, List.mem_singleton, not_or]
    exact ⟨fun hd => absurd (name.word _ hd) (by decide), by decide⟩
  have comments := passes_of_no_slash slash
  have front : Passive (n ++ [' ']) :=
    ⟨comments.1, comments.2, portPattern_ledBy.passes_of_search? noDirection (by decide)⟩
  have passive := front.append label.passive
  rw [List.append_assoc] at passive
  refine passive.rereads fun before s => ?_
  refine (parameterPattern_ledBy.begins.quiet_of_word name.word ?_).append ?_
  · simpa using refuses_parameter_label (s := s) name
  · exact Pattern.quiet_of_closed rfl (by decide)

/-- A line of an instance: it breaks nowhere and nothing is found in it, moved to the right by a margin. -/
structure InstanceLine (line : Text) : Prop where
  unbroken : ∀ c ∈ line, isLineBreak c = false
  nonempty : line ≠ []
  rereads : Rereads ("  ".toList ++ line ++ ['\n']) ("  ".toList ++ line ++ ['\n']) []

theorem unbroken_append (first : ∀ c ∈ v, isLineBreak c = false) (second : ∀ c ∈ w, isLineBreak c = false) :
    ∀ c ∈ v ++ w, isLineBreak c = false := fun c hc =>
  (List.mem_append.mp hc).elim (first c) (second c)

theorem instanceLine_fixed (unbroken : ∀ c ∈ line, isLineBreak c = false) (nonempty : line ≠ [])
    (h : "  ".toList ++ line ∈ phrases) : InstanceLine line :=
  ⟨unbroken, nonempty, rereads_fixed h⟩

theorem instanceLine_binding (name : n.IsName) : InstanceLine (binding n n) ∧ InstanceLine (binding n n ++ [',']) := by
  have unbroken : ∀ c ∈ binding n n, isLineBreak c = false := by
    unfold binding
    exact unbroken_append (unbroken_append (unbroken_append (unbroken_append (by decide) name.unbroken) (by decide))
      name.unbroken) (by decide)
  have nonempty : binding n n ≠ [] := by
    unfold binding
    simp
  refine ⟨⟨unbroken, nonempty, ?_⟩, ⟨unbroken_append unbroken (by decide), by simp, ?_⟩⟩
  · have last : Rereads ("  ".toList ++ (binding n n ++ []) ++ ['\n']) ("  ".toList ++ (binding n n ++ []) ++ ['\n']) [] :=
      rereads_binding name (.inl rfl)
    rwa [List.append_nil] at last
  · exact rereads_binding name (.inr rfl)

theorem instanceLine_of_mem_bindings {names : List Text} (known : ∀ n ∈ names, n.IsName)
    (h : line ∈ punctuate ",".toList (names.map fun n => binding n n)) : InstanceLine line := by
  obtain ⟨part, hpart, same⟩ := mem_punctuate h
  obtain ⟨n, hn, rfl⟩ := List.mem_map.mp hpart
  have both := instanceLine_binding (known n hn)
  rcases same with rfl | rfl
  · exact both.1
  · exact both.2

theorem rereads_block {first : Text} {more : List Text} (h : ∀ l ∈ first :: more, InstanceLine l) :
    Rereads ("  ".toList ++ indentRest "  ".toList (joinLines (first :: more)) ++ ['\n'])
      ("  ".toList ++ indentRest "  ".toList (joinLines (first :: more)) ++ ['\n']) [] := by
  rw [indented_joinLines (fun l hl => (h l hl).unbroken) fun l hl => (h l (List.mem_cons_of_mem first hl)).nonempty]
  have lines : Rereads (((first :: more).map ("  ".toList ++ ·)).flatMap (· ++ ['\n']))
      (((first :: more).map ("  ".toList ++ ·)).flatMap (· ++ ['\n'])) ((first :: more).flatMap fun _ => []) :=
    rereads_lines fun l hl => (h l hl).rereads
  rwa [List.flatMap_map, List.flatMap_eq_nil_iff.mpr fun _ _ => rfl] at lines

theorem instanceLine_labelled (name : n.IsName) (noDirection : directionWord.search? n = none) :
    InstanceLine (n ++ " ".toList ++ "uut".toList ++ " (".toList) := by
  have margin : Rereads "  ".toList "  ".toList [] := rereads_separator (by decide) (by decide)
  refine ⟨?_, by simp, ?_⟩
  · exact unbroken_append (unbroken_append (unbroken_append name.unbroken (by decide)) (by decide)) (by decide)
  · have line := margin.append ((rereads_labelled name noDirection).append rereads_lineFeed)
    simpa using line

theorem instanceLine_parametrised (name : n.IsName) : InstanceLine (n ++ " #(".toList) := by
  have margin : Rereads "  ".toList "  ".toList [] := rereads_separator (by decide) (by decide)
  have label : Rereads (n ++ ([' '] ++ ['#'])) (n ++ ([' '] ++ ['#'])) [] :=
    rereads_name name.word (by decide) (by decide)
  have rest : Rereads ['(', '\n'] ['(', '\n'] [] := rereads_separator (by decide) (by decide)
  refine ⟨unbroken_append name.unbroken (by decide), by simp, ?_⟩
  have line := margin.append (label.append rest)
  simpa using line

theorem exists_instanceLines (extracted : ExtractedFrom code unit)
    (noDirection : directionWord.search? unit.name = none) :
    ∃ first more, instantiation unit.name "uut" (unit.generics.map fun g => (g.name, g.name)) unit.ports =
      joinLines (first :: more) ∧ ∀ l ∈ first :: more, InstanceLine l := by
  have closing : InstanceLine ");".toList :=
    instanceLine_fixed (by decide) (by decide) (by decide)
  have parameters : ∀ l ∈ punctuate ",".toList ((unit.generics.map (·.name)).map fun n => binding n n),
      InstanceLine l := fun l =>
    instanceLine_of_mem_bindings (List.forall_mem_map.mpr fun g hg => (extracted.generics g hg).1)
  have ports : ∀ l ∈ punctuate ",".toList ((unit.ports.map (·.name)).map fun n => binding n n),
      InstanceLine l := fun l =>
    instanceLine_of_mem_bindings (List.forall_mem_map.mpr fun p hp => (extracted.ports p hp).1)
  rw [List.map_map] at parameters ports
  unfold instantiation
  rw [List.map_map]
  split
  all_goals simp only [List.flatten_cons, List.flatten_nil, List.append_nil, List.cons_append, List.nil_append]
  · have opening := instanceLine_labelled extracted.name noDirection
    exact ⟨_, _, rfl, List.forall_mem_cons.mpr ⟨opening, List.forall_mem_append.mpr
      ⟨ports, List.forall_mem_singleton.mpr closing⟩⟩⟩
  · have opening := instanceLine_parametrised extracted.name
    have middle : InstanceLine (") ".toList ++ "uut".toList ++ " (".toList) :=
      instanceLine_fixed (by decide) (by decide) (by decide)
    exact ⟨_, _, rfl, List.forall_mem_cons.mpr ⟨opening, List.forall_mem_append.mpr
      ⟨List.forall_mem_append.mpr ⟨parameters, List.forall_mem_singleton.mpr middle⟩,
        List.forall_mem_append.mpr ⟨ports, List.forall_mem_singleton.mpr closing⟩⟩⟩⟩

theorem rereads_uut (extracted : ExtractedFrom code unit) (noDirection : directionWord.search? unit.name = none) :
    Rereads ("  ".toList ++ indentRest "  ".toList (instantiation unit.name "uut"
        (unit.generics.map fun g => (g.name, g.name)) unit.ports) ++ ['\n'])
      ("  ".toList ++ indentRest "  ".toList (instantiation unit.name "uut"
        (unit.generics.map fun g => (g.name, g.name)) unit.ports) ++ ['\n']) [] := by
  obtain ⟨first, more, text, lines⟩ := exists_instanceLines extracted noDirection
  rw [text]
  exact rereads_block lines

end Pinout.Verilog
