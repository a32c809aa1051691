import Pinout.Proofs.Pattern.Joint
import Pinout.Proofs.Verilog.Declarations
import Pinout.Proofs.Verilog.ParameterReading
import Pinout.Proofs.Verilog.PortScan

/-! # A blank between two parts of a Verilog source

Where a blank is put in, it must not part a word, must not be the gap that a parameter asks for in front of
its range, and must not be the only value behind an equals sign. Then the name of the module, the pins and
the names of the parameters are the same with the blank and without it.
-/

namespace Pinout.Verilog

open Pattern (Stops stops_cons stops_nil ended InFront AtBlank PastBlank Tolerates Alike)

variable {asked : Nat → Bool} {before : Option Char} {g s u v x y : Text} {c : Char} {next : Pattern.Onward}

/-- The words that may stand in front of the range of a parameter. -/
def qualifiers : List Text :=
  "parameter" :: parameterTypes

/-- The text ends with an equals sign, up to line breaks. -/
def AwaitsValue (front : Text) : Prop :=
  (front.reverse.dropWhile (· == '\n')).head? = some '='

/-- What stands in front of a place and what stands behind it make up no token together. -/
structure Separable (front behind : Text) : Prop where
  /-- No word runs across the place. -/
  word : Pattern.Apart (lastOf none front) behind
  /-- No range follows a word that wants a gap. -/
  range : (∃ k ∈ qualifiers, k <:+ front) → Stops (· == '[') behind
  /-- No value is left out there. -/
  value : AwaitsValue front → ¬ Stops inValue (behind.dropWhile (· == '\n'))

instance (front : Text) : Decidable (AwaitsValue front) :=
  inferInstanceAs (Decidable (_ = _))

instance (accepts : Char → Bool) (t : Text) : Decidable (Stops accepts t) :=
  decidable_of_iff (t.head?.any accepts = false) <| by
    cases t with
    | nil => exact ⟨fun _ => stops_nil, fun _ => rfl⟩
    | cons c t => exact stops_cons.symm

instance (front behind : Text) : Decidable (Separable front behind) :=
  decidable_of_iff
    (((lastOf none front).any Text.isWord = true → Stops Text.isWord behind) ∧
      ((∃ k ∈ qualifiers, k <:+ front) → Stops (· == '[') behind) ∧
      (AwaitsValue front → ¬ Stops inValue (behind.dropWhile (· == '\n'))))
    ⟨fun ⟨word, range, value⟩ => ⟨word, range, value⟩, fun ⟨word, range, value⟩ => ⟨word, range, value⟩⟩

def valueOn (asked : Nat → Bool) : Pattern.Onward :=
  (Pattern.group 2 (.atLeastOne inValue)).via asked ended

theorem valueOn_eq (unasked : asked 2 = false) :
    valueOn asked = (Pattern.one inValue).via asked ((Pattern.many inValue).via asked ended) := by
  rw [valueOn, Pattern.via_group unasked, Pattern.atLeastOne, Pattern.via_append]

theorem inFront_valueOn (unasked : asked 2 = false) : InFront u v (valueOn asked) := by
  have sweeps : Pattern.Sweeps inValue _ ((Pattern.many inValue).via asked ended) ended :=
    Pattern.sweeps_many_ended (by decide)
  rw [valueOn_eq unasked]
  exact Pattern.inFront_one (sweeps.inFront Pattern.inFront_ended Pattern.pastBlank_ended) fun _ _ _ =>
    sweeps.atBlank Pattern.pastBlank_ended

theorem valueOn_run (unasked : asked 2 = false) (value : inValue c = true) (all : ∀ d ∈ x, inValue d = true)
    (stops : Stops inValue s) : valueOn asked before (c :: (x ++ s)) = some ([], s) := by
  rw [valueOn_eq unasked, Pattern.via_one, if_pos value, Pattern.via_many_of_some all stops rfl]

theorem valueOn_of_stops (stops : Stops inValue s) : valueOn asked before s = none :=
  Pattern.via_of_refuses ((Pattern.refuses_of_stops (p := .atLeastOne inValue) rfl
    fun c hc => by simpa using stops c hc).group 2)

theorem inValue_of_isBlank (blank : Text.isBlank c = true) (other : c ≠ '\n') : inValue c = true := by
  have visible : Text.isBlank ',' = false ∧ Text.isBlank ';' = false := ⟨by decide, by decide⟩
  have comma : c ≠ ',' := by
    rintro rfl
    rw [visible.1] at blank
    cases blank
  have semicolon : c ≠ ';' := by
    rintro rfl
    rw [visible.2] at blank
    cases blank
  simp [inValue, comma, semicolon, other]

theorem value_of_lineFeeds (feeds : ∀ c ∈ g, c = '\n') (visible : Stops Text.isBlank s) (stops : Stops inValue s) :
    Pattern.blanks.via asked (valueOn asked) before (g ++ s) = none := by
  induction g generalizing before with
  | nil =>
      cases s with
      | nil => exact Pattern.via_many_nil.trans (valueOn_of_stops stops)
      | cons c s =>
          rw [List.nil_append, Pattern.blanks, Pattern.via_many_cons, stops_cons.mp visible]
          exact valueOn_of_stops stops
  | cons c g ih =>
      obtain rfl := feeds c (by simp)
      have here : valueOn asked before ('\n' :: (g ++ s)) = none := valueOn_of_stops (stops_cons.mpr (by decide))
      rw [List.cons_append, Pattern.blanks, Pattern.via_many_cons, here, Option.or_none, if_pos (by decide)]
      exact ih fun d hd => feeds d (by simp [hd])

/-- Any other blank is taken for the value where there is no other one. -/
theorem value_of_blank (before : Option Char) (unasked : asked 2 = false) (blank : ∀ c ∈ g, Text.isBlank c = true)
    (other : ∃ c ∈ g, c ≠ '\n') (visible : Stops Text.isBlank s) (stops : Stops inValue s) :
    ∃ r, Pattern.blanks.via asked (valueOn asked) before (g ++ s) = some ([], r) ∧ Text.trimLeft r = s := by
  induction g generalizing before with
  | nil => simp at other
  | cons c g ih =>
      have behind : ∀ d ∈ g, Text.isBlank d = true := fun d hd => blank d (by simp [hd])
      rw [List.cons_append, Pattern.blanks, Pattern.via_many_cons, if_pos (blank c (by simp))]
      by_cases more : ∃ d ∈ g, d ≠ '\n'
      · obtain ⟨r, found, trimmed⟩ := ih (some c) behind more
        refine ⟨r, ?_, trimmed⟩
        rw [← Pattern.blanks, found, Option.some_or]
      · have feeds : ∀ d ∈ g, d = '\n' := by simpa using more
        have value : inValue c = true := inValue_of_isBlank (blank c (by simp)) fun feed => by
          obtain ⟨d, hd, differs⟩ := other
          rcases List.mem_cons.mp hd with rfl | hd
          · exact differs feed
          · exact differs (feeds d hd)
        have ends : Stops inValue (g ++ s) := by
          cases g with
          | nil => exact stops
          | cons d g =>
              rw [feeds d (by simp)]
              exact stops_cons.mpr (by decide)
        refine ⟨g ++ s, ?_, by rw [Text.trimLeft_append behind, Text.trimLeft_eq_self visible]⟩
        rw [← Pattern.blanks, value_of_lineFeeds feeds visible stops, Option.none_or]
        exact valueOn_run (x := []) unasked value (List.forall_mem_nil _) ends

theorem value_of_run (unasked : asked 2 = false) (blank : ∀ c ∈ g, Text.isBlank c = true) (visible : Text.isBlank c = false)
    (value : inValue c = true) :
    Pattern.blanks.via asked (valueOn asked) before (g ++ c :: s) = valueOn asked (lastOf before g) (c :: s) := by
  obtain ⟨x, r, rfl, all, stops⟩ := Pattern.exists_run inValue s
  have found : ∀ before, valueOn asked before (c :: (x ++ r)) = some ([], r) := fun _ =>
    valueOn_run unasked value all stops
  rw [found]
  exact Pattern.via_many_of_some blank (stops_cons.mpr visible) (found _)

theorem awaitsValue_of_suffix (feeds : ∀ c ∈ g, c = '\n') (suffix : '=' :: g <:+ u) : AwaitsValue u := by
  obtain ⟨z, rfl⟩ := suffix
  have reversed : ∀ c ∈ g.reverse, (c == '\n') = true := fun c hc => beq_iff_eq.mpr (feeds c (List.mem_reverse.mp hc))
  rw [AwaitsValue, List.reverse_append, List.reverse_cons, List.append_assoc, List.dropWhile_append_of_pos reversed]
  rfl

section Blank

variable (unasked : asked 2 = false) (separable : Separable u v)
include unasked

private theorem alike_value_inFront {z : Text} (blank : ∀ d ∈ g, Text.isBlank d = true) (visible : Text.isBlank c = false)
    (suffix : c :: z <:+ u) :
    Alike u v (Pattern.blanks.via asked (valueOn asked) before (g ++ (c :: z ++ v)))
      (Pattern.blanks.via asked (valueOn asked) before (g ++ (c :: z ++ ' ' :: v))) := by
  cases value : inValue c with
  | true =>
      rw [List.cons_append, value_of_run unasked blank visible value, List.cons_append,
        value_of_run unasked blank visible value]
      exact inFront_valueOn unasked _ (c :: z) (List.cons_ne_nil c z) suffix
  | false =>
      have front : ∀ s, Stops Text.isBlank (c :: z ++ s) := fun s => stops_cons.mpr visible
      have stops : ∀ s, Stops inValue (c :: z ++ s) := fun s => stops_cons.mpr value
      by_cases other : ∃ d ∈ g, d ≠ '\n'
      · obtain ⟨r, found, place⟩ := value_of_blank before unasked blank other (front v) (stops v)
        obtain ⟨r', found', place'⟩ := value_of_blank before unasked blank other (front _) (stops (' ' :: v))
        rw [found, found']
        exact .found (.ahead (List.cons_ne_nil c z) suffix place place')
      · have feeds : ∀ d ∈ g, d = '\n' := by simpa using other
        rw [value_of_lineFeeds feeds (front v) (stops v), value_of_lineFeeds feeds (front _) (stops _)]
        exact .nothing

include separable

private theorem alike_value_past (blank : ∀ d ∈ y, Text.isBlank d = true) (suffix : '=' :: y <:+ u) :
    Alike u v (Pattern.blanks.via asked (valueOn asked) before (y ++ v))
      (Pattern.blanks.via asked (valueOn asked) before (y ++ ' ' :: v)) := by
  obtain ⟨x, s, rfl, blank', visible⟩ := Pattern.exists_run Text.isBlank v
  have plain : ∀ d ∈ y ++ x, Text.isBlank d = true := List.forall_mem_append.mpr ⟨blank, blank'⟩
  have spaced : ∀ d ∈ y ++ ' ' :: x, Text.isBlank d = true :=
    List.forall_mem_append.mpr ⟨blank, List.forall_mem_cons.mpr ⟨by decide, blank'⟩⟩
  rw [← List.append_assoc, ← List.cons_append, ← List.append_assoc]
  by_cases stops : Stops inValue s
  · have other : ∃ d ∈ y ++ x, d ≠ '\n' := by
      by_contra none
      have feeds : ∀ d ∈ y ++ x, d = '\n' := by simpa using none
      obtain ⟨front, back⟩ := List.forall_mem_append.mp feeds
      refine separable.value (awaitsValue_of_suffix front suffix) ?_
      rw [List.dropWhile_append_of_pos fun c hc => beq_iff_eq.mpr (back c hc)]
      cases s with
      | nil => exact stops_nil
      | cons c s =>
          have visibleFeed : c ≠ '\n' := by
            rintro rfl
            exact absurd (stops_cons.mp visible) (by decide)
          rwa [List.dropWhile_cons_of_neg (by simpa using visibleFeed)]
    obtain ⟨r, found, place⟩ := value_of_blank before unasked plain other visible stops
    obtain ⟨r', found', place'⟩ :=
      value_of_blank before unasked spaced ⟨' ', by simp, by decide⟩ visible stops
    rw [found, found']
    exact .found (.past (place.trans place'.symm))
  · cases s with
    | nil => exact absurd stops_nil stops
    | cons c t =>
        rw [stops_cons, Bool.not_eq_false] at stops
        obtain ⟨y, r, rfl, run, ends⟩ := Pattern.exists_run inValue t
        rw [value_of_run unasked plain (stops_cons.mp visible) stops, valueOn_run unasked stops run ends,
          value_of_run unasked spaced (stops_cons.mp visible) stops, valueOn_run unasked stops run ends]
        exact .refl _

theorem alike_value (suffix : '=' :: y <:+ u) :
    Alike u v (Pattern.blanks.via asked (valueOn asked) before (y ++ v))
      (Pattern.blanks.via asked (valueOn asked) before (y ++ ' ' :: v)) := by
  obtain ⟨g, z, rfl, blank, visible⟩ := Pattern.exists_run Text.isBlank y
  cases z with
  | nil =>
      rw [List.append_nil] at suffix ⊢
      exact alike_value_past unasked separable blank suffix
  | cons c z =>
      rw [List.append_assoc, List.append_assoc]
      exact alike_value_inFront unasked blank (stops_cons.mp visible) (Pattern.suffix_of_append (x := '=' :: g) suffix)

theorem tolerates_value :
    Tolerates u v ((Pattern.char '=').via asked (Pattern.blanks.via asked (valueOn asked))) where
  inFront before y nonempty suffix := by
    obtain ⟨c, y, rfl⟩ := List.exists_cons_of_ne_nil nonempty
    rw [List.cons_append, List.cons_append, Pattern.char, Pattern.via_one, Pattern.via_one]
    split
    · rename_i same
      obtain rfl := beq_iff_eq.mp same
      exact alike_value unasked separable suffix
    · exact .nothing
  pastBlank := Pattern.pastBlank_one
  halts := Pattern.halts_char (by decide)

end Blank

theorem halts_unbracketed : Pattern.Halts (fun c => c != '[' && c != ']')
    ((Pattern.char ']').via asked next) :=
  Pattern.halts_char (by decide)

/-- What is passed over between brackets may hold the blank. -/
theorem tolerates_bracketed {holds : Text → Bool} {inside : Pattern.Onward} (h : Tolerates u v next)
    (sweeps : Pattern.Sweeps (fun c => c != '[' && c != ']') holds inside
      ((Pattern.char ']').via asked (Pattern.blanks.via asked next))) :
    Tolerates u v ((Pattern.char '[').via asked inside) := by
  have closing : Tolerates u v ((Pattern.char ']').via asked (Pattern.blanks.via asked next)) :=
    .char (by decide) (h.sweeps.inFront h.inFront h.pastBlank) fun _ => h.sweeps.atBlank h.pastBlank
  exact .char (by decide) (sweeps.inFront closing.inFront closing.pastBlank) fun _ => sweeps.atBlank closing.pastBlank

theorem tolerates_portRange (unasked : asked 3 = false) (h : Tolerates u v next) :
    Tolerates u v ((Pattern.char '[' ++ .group 3 (unbracketed ++ .char ':' ++ unbracketed) ++ .char ']' ++
      .blanks : Pattern).via asked next) := by
  simp only [Pattern.via_append, Pattern.via_group unasked]
  exact tolerates_bracketed h
    (Pattern.sweeps_many_char_many halts_unbracketed (by decide) (by decide) (by decide))

theorem tolerates_parameterRange (h : Tolerates u v next) :
    Tolerates u v ((Pattern.char '[' ++ unbracketed ++ .char ']' ++ .blanks : Pattern).via asked next) := by
  simp only [Pattern.via_append]
  exact tolerates_bracketed h (Pattern.sweeps_many halts_unbracketed (by decide))

theorem solid_directions : directions.Solid :=
  (Pattern.solid_keyword (by decide) (by decide)).orElse
    ((Pattern.solid_keyword (by decide) (by decide)).orElse (Pattern.solid_keyword (by decide) (by decide)))

theorem solid_netTypes : netTypes.Solid :=
  (Pattern.solid_keyword (by decide) (by decide)).orElse
    ((Pattern.solid_keyword (by decide) (by decide)).orElse (Pattern.solid_keyword (by decide) (by decide)))

theorem solid_typeWords : typeWords.Solid := by
  have words : ∀ k ∈ parameterTypes, (∀ c ∈ k, Text.isWord c = true) ∧ k ≠ [] := by decide
  have solid : ∀ k ∈ parameterTypes, (Pattern.exactly k).Solid := fun k hk =>
    Pattern.solid_exactly (words k hk).1 (words k hk).2
  exact (solid _ (by decide)).orElse ((solid _ (by decide)).orElse ((solid _ (by decide)).orElse
    ((solid _ (by decide)).orElse ((solid _ (by decide)).orElse (solid _ (by decide))))))

section Declaration

variable (separable : Separable u v)
include separable

theorem tolerates_name (index : Nat) : Tolerates u v ((Pattern.group index .word).via asked ended) :=
  .solid (Pattern.solid_word.group index) separable.word Pattern.inFront_ended fun _ _ _ _ _ => Pattern.atBlank_ended

theorem inFront_modulePattern : InFront u v (modulePattern.via asked ended) := by
  have name : Tolerates u v ((Pattern.group 1 .word).via asked ended) := tolerates_name separable 1
  simp only [modulePattern, Pattern.via_append]
  refine Pattern.inFront_boundary (Pattern.Solid.inFront ?_ separable.word name.inFront_gap fun before a ha _ word => ?_)
  · exact Pattern.solid_exactly (by decide) (by decide)
  · exact name.atBlank_gap fun _ => Pattern.via_of_refuses ((Pattern.solid_word.group 1).refuses (separable.word word))

theorem tolerates_rangeTail (unasked : asked 3 = false) : Tolerates u v (rangeTail.via asked ended) := by
  have name : Tolerates u v ((Pattern.group 4 .word).via asked ended) := tolerates_name separable 4
  rw [rangeTail, Pattern.via_append]
  exact (tolerates_portRange unasked name).optional name

theorem tolerates_signedTail (unasked : asked 3 = false) : Tolerates u v (signedTail.via asked ended) := by
  have ranged := tolerates_rangeTail separable unasked
  rw [signedTail, Pattern.via_append]
  refine .optional ?_ ranged
  simp only [Pattern.via_append]
  exact ranged.keyword separable.word (Pattern.solid_keyword (by decide) (by decide))

theorem tolerates_typeTail (unasked : asked 3 = false) : Tolerates u v (typeTail.via asked ended) := by
  have signed := tolerates_signedTail separable unasked
  rw [typeTail, Pattern.via_append]
  refine .optional ?_ signed
  simp only [Pattern.via_append]
  exact signed.keyword separable.word (solid_netTypes.group 2)

theorem inFront_portPattern (unasked : asked 3 = false) : InFront u v (portPattern.via asked ended) := by
  have solid : (Pattern.group 1 directions).Solid := solid_directions.group 1
  rw [Pattern.via_congr readings_portPattern]
  simp only [Pattern.via_append]
  exact Pattern.inFront_boundary ((tolerates_typeTail separable unasked).keyword separable.word solid).inFront

theorem tolerates_nameTail (unasked : asked 2 = false) : Tolerates u v (nameTail.via asked ended) := by
  have value : Tolerates u v _ := tolerates_value unasked separable
  simp only [nameTail, Pattern.via_append]
  exact .solid (Pattern.solid_word.group 1) separable.word (value.sweeps.inFront value.inFront value.pastBlank)
    fun _ _ _ _ _ => value.sweeps.atBlank value.pastBlank

theorem tolerates_packedTail (unasked : asked 2 = false) : Tolerates u v (packedTail.via asked ended) := by
  have named := tolerates_nameTail separable unasked
  rw [packedTail, Pattern.via_append]
  exact (tolerates_parameterRange named).optional named

omit separable in
theorem dead_typed (ends : Stops Text.isWord v) (unranged : Stops (· == '[') v) (rounds : Nat) :
    Pattern.viaTimes asked parameterType (packedTail.via asked ended) rounds before v = none := by
  have untyped : parameterType.Refuses before v := (solid_typeWords.refuses ends).append
  have unpacked : packedTail.Refuses before v := by
    refine Pattern.refuses_optional_append.mpr ⟨?_, ((Pattern.solid_word.group 1).refuses ends).append⟩
    exact Pattern.refuses_of_stops rfl fun c hc => by simpa [Pattern.char, Pattern.opens, Pattern.nullable] using unranged c hc
  exact Pattern.viaTimes_of_refuses untyped (Pattern.via_of_refuses unpacked) rounds

/-- The induction is on the number of types. Behind each of them the blank may only be put in where a gap is
not the matter. -/
theorem tolerates_typed (unasked : asked 2 = false) (rounds : Nat) :
    Tolerates u v (Pattern.viaTimes asked parameterType (packedTail.via asked ended) rounds) := by
  have packed := tolerates_packedTail separable unasked
  induction rounds with
  | zero => exact packed
  | succ rounds ih =>
      have typed : Tolerates u v (parameterType.via asked
          (Pattern.viaTimes asked parameterType (packedTail.via asked ended) rounds)) := by
        have same : parameterType = typeWords ++ .gap := rfl
        rw [same, Pattern.via_append]
        refine .solid solid_typeWords separable.word ih.inFront_gap fun before a ha suffix word => ?_
        refine ih.atBlank_gap fun _ => dead_typed (separable.word word) (separable.range ?_) rounds
        exact ⟨a.text, List.mem_cons_of_mem _ (mem_typeWords ha), suffix⟩
      exact typed.or packed

theorem inFront_parameterPattern (unasked : asked 2 = false) : InFront u v (parameterPattern.via asked ended) := by
  have typed : Tolerates u v ((Pattern.repeated parameterType).via asked (packedTail.via asked ended)) :=
    .repeated rfl (tolerates_typed separable unasked)
  rw [Pattern.via_congr readings_parameterPattern]
  simp only [Pattern.via_append]
  refine Pattern.inFront_boundary (Pattern.Solid.inFront ?_ separable.word typed.inFront_gap fun before a ha suffix word => ?_)
  · exact Pattern.solid_exactly (by decide) (by decide)
  · refine typed.atBlank_gap fun _ => ?_
    rw [Pattern.via_repeated rfl (Nat.le_refl _)]
    refine dead_typed (separable.word word) (separable.range ⟨"parameter", by decide, ?_⟩) _
    rw [Pattern.mem_exactly ha] at suffix
    exact suffix

end Declaration

/-- What is reported of a source but for the types, the ranges and the values. -/
structure Outline where
  name : Text
  pins : Except UnknownDirection (List (Text × Direction))
  parameters : List Text

def outline (source : Text) : Outline where
  name := unitName source
  pins := (ports source).map (List.map Port.pin)
  parameters := (generics source).map Generic.name

def outlineOf (t : Text) : Outline where
  name := ((modulePattern.scan none t).head?.map (·.group 1)).getD unknownUnit
  pins := (portPattern.scan none t).mapM pinRead
  parameters := (parameterPattern.scan none t).map (·.group 1)

theorem outline_eq (source : Text) : outline source = outlineOf (stripComments source) := by
  rw [outline, unitName_eq_scan, pins_eq_scan, generics_eq_scan, List.map_map]
  rfl

theorem map_congr_told {α : Type} {report : Reading → α} {rs rs' : List Reading}
    (h : ∀ r r', Pattern.told asked r = Pattern.told asked r' → report r = report r')
    (same : rs.map (Pattern.told asked) = rs'.map (Pattern.told asked)) : rs.map report = rs'.map report := by
  induction rs generalizing rs' with
  | nil =>
      obtain rfl := List.map_eq_nil_iff.mp same.symm
      rfl
  | cons r rs ih =>
      obtain ⟨r', rs', rfl, first, rest⟩ := List.map_eq_cons_iff.mp same.symm
      rw [List.map_cons, List.map_cons, h r r' first.symm, ih rest.symm]

theorem group_congr_told {index : Nat} (h : asked index = true) {r r' : Reading}
    (same : Pattern.told asked r = Pattern.told asked r') : r.group index = r'.group index := by
  rw [Reading.group, Reading.group, ← Pattern.lookup_told r h, same, Pattern.lookup_told r' h]

theorem modulePattern_skipsBlanks : modulePattern.SkipsBlanks where
  reads := rfl
  closed _ := Text.forall_blank (modulePattern.opens · = false) (by decide)

section Blank

variable (separable : Separable u v)
include separable

theorem moduleNames_blank :
    (modulePattern.scan none (u ++ v)).map (·.group 1) = (modulePattern.scan none (u ++ ' ' :: v)).map (·.group 1) := by
  have ends : modulePattern.TakesApart := Pattern.takesApart_group_atLeastOne 1 fun _ => id
  have same : (modulePattern.scan none (u ++ v)).map (Pattern.told (· == 1)) = _ :=
    Pattern.told_scan_blank modulePattern_ledBy.begins modulePattern_skipsBlanks ends separable.word
      (inFront_modulePattern separable)
  exact map_congr_told (fun r r' => group_congr_told rfl) same

theorem parameterNames_blank :
    (parameterPattern.scan none (u ++ v)).map (·.group 1) = (parameterPattern.scan none (u ++ ' ' :: v)).map (·.group 1) := by
  have ends : parameterPattern.TakesApart := Pattern.takesApart_group_atLeastOne 2 fun c word => by
    have differs : ∀ mark ∈ [',', ';', '\n'], Text.isWord mark = false := by decide
    simp only [Bool.and_eq_true, bne_iff_ne, and_assoc]
    refine ⟨?_, ?_, ?_⟩ <;>
    · rintro rfl
      rw [differs _ (by decide)] at word
      cases word
  have same : (parameterPattern.scan none (u ++ v)).map (Pattern.told (· == 1)) = _ :=
    Pattern.told_scan_blank parameterPattern_beginsWord parameterPattern_skipsBlanks ends separable.word
      (inFront_parameterPattern separable rfl)
  exact map_congr_told (fun r r' => group_congr_told rfl) same

theorem pins_blank :
    (portPattern.scan none (u ++ v)).mapM pinRead = (portPattern.scan none (u ++ ' ' :: v)).mapM pinRead := by
  have ends : portPattern.TakesApart := Pattern.takesApart_group_atLeastOne 4 fun _ => id
  have same : (portPattern.scan none (u ++ v)).map (Pattern.told fun index => index == 1 || index == 4) = _ :=
    Pattern.told_scan_blank portPattern_beginsWord portPattern_skipsBlanks ends separable.word
      (inFront_portPattern separable rfl)
  have read : (portPattern.scan none (u ++ v)).map pinRead = (portPattern.scan none (u ++ ' ' :: v)).map pinRead := by
    refine map_congr_told (fun r r' told => ?_) same
    rw [pinRead, pinRead, group_congr_told rfl told, group_congr_told rfl told]
  have oneByOne : ∀ rs, List.mapM pinRead rs = (rs.map pinRead).mapM id := fun rs => by
    rw [List.mapM_map, Function.id_comp]
  rw [oneByOne, read, ← oneByOne]

/-- The blank makes no difference to the outline. -/
theorem outlineOf_blank : outlineOf (u ++ v) = outlineOf (u ++ ' ' :: v) := by
  rw [outlineOf, outlineOf, ← List.head?_map, ← List.head?_map, moduleNames_blank separable, pins_blank separable,
    parameterNames_blank separable]

end Blank

end Pinout.Verilog
