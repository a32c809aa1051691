import Pinout.Proofs.Layout.Read
import Pinout.Proofs.Pattern.Horizon
import Pinout.Proofs.Verilog.Value

/-! # Reading parameters

The parameter pattern takes a parameter up to its value and then whatever follows the value on its
line, up to the next comma or semicolon. A name that looks like a type is not passed over, as no name
would be left.
-/

namespace Pinout.Verilog

open Token

variable {before : Option Char} {s t y : Text} {tokens behind : List Token} {gaps : List Text} {c : Char}

/-- Reads one of the types a parameter may have, and the gap behind it. -/
def parameterType : Pattern :=
  (.exactly "integer" <|> .exactly "real" <|> .exactly "realtime" <|> .exactly "time" <|>
    .exactly "signed" <|> .exactly "unsigned") ++ .gap

/-- Whether a character may occur in what is read as a value. -/
def inValue (c : Char) : Bool :=
  c != ',' && c != ';' && c != '\n'

def nameTail : Pattern :=
  .group 1 .word ++ (.blanks ++ (.char '=' ++ (.blanks ++ .group 2 (.atLeastOne inValue))))

def packedTail : Pattern :=
  .optional (.char '[' ++ unbracketed ++ .char ']' ++ .blanks) ++ nameTail

theorem readings_parameterPattern (before : Option Char) (t : Text) :
    parameterPattern.readings before t =
      (.boundary ++ (.exactly "parameter" ++ (.gap ++ (.repeated parameterType ++ packedTail))) :
        Pattern).readings before t := by
  simp only [parameterPattern, Pattern.readings_append_assoc]
  rfl

theorem parameterPattern_skipsBlanks : parameterPattern.SkipsBlanks where
  reads := rfl
  closed _ := Text.forall_blank (parameterPattern.opens · = false) (by decide)

theorem parameterPattern_beginsWord : parameterPattern.BeginsWord := by
  refine Pattern.beginsWord_of_boundary readings_parameterPattern rfl fun c h => ?_
  have opened : c = 'p' := by
    simpa [Pattern.exactly, Pattern.char, Pattern.opens, Pattern.nullable] using h
  subst opened
  decide

def parameterTypes : List Text :=
  ["integer", "real", "realtime", "time", "signed", "unsigned"]

def typeWords : Pattern :=
  .exactly "integer" <|> .exactly "real" <|> .exactly "realtime" <|> .exactly "time" <|> .exactly "signed" <|>
    .exactly "unsigned"

theorem mem_typeWords {a : Reading} (h : a ∈ typeWords.readings before t) : a.text ∈ parameterTypes := by
  have isType : ∀ k, a ∈ (Pattern.exactly k).readings before t → k ∈ parameterTypes → a.text ∈ parameterTypes :=
    fun k hk known => by rwa [Pattern.mem_exactly hk]
  simp only [typeWords, Pattern.readings_orElse, List.mem_append] at h
  rcases h with h | h | h | h | h | h
  all_goals exact isType _ h (by decide)

theorem mem_parameterType {a : Reading} (h : a ∈ parameterType.readings before t) :
    ∃ type ∈ parameterTypes, ∃ x s, t = type ++ (x ++ s) ∧ a.text = type ++ x ∧ x ≠ [] ∧
      ∀ c ∈ x, Text.isBlank c = true := by
  obtain ⟨type, htype, s, rfl, gap, hgap, rfl⟩ := Pattern.exists_of_mem_append h
  obtain ⟨s, rfl⟩ := Pattern.front_of_mem hgap
  obtain ⟨nonempty, blank, -⟩ := Pattern.mem_atLeastOne hgap
  exact ⟨type.text, mem_typeWords htype, gap.text, s, rfl, rfl, nonempty, blank⟩

theorem refuses_behind_name {g : Text} (blank : ∀ c ∈ g, Text.isBlank c = true) :
    parameterType.Refuses before (g ++ '=' :: s) ∧ packedTail.Refuses before (g ++ '=' :: s) := by
  have closed : Pattern.Stops (fun c => parameterType.opens c || packedTail.opens c) (g ++ '=' :: s) := by
    cases g with
    | nil => exact Pattern.stops_cons.mpr (by decide)
    | cons c g =>
        exact Pattern.stops_cons.mpr
          (Text.forall_blank (fun c => (parameterType.opens c || packedTail.opens c) = false)
            (by decide +kernel) (blank c (by simp)))
  have both := fun c hc => Bool.or_eq_false_iff.mp (closed c hc)
  exact ⟨Pattern.refuses_of_stops rfl fun c hc => (both c hc).1,
    Pattern.refuses_of_stops rfl fun c hc => (both c hc).2⟩

theorem readings_name (name : Name) {g : Text} (blank : ∀ c ∈ g, Text.isBlank c = true) :
    (.repeated parameterType ++ packedTail : Pattern).readings before (name.text ++ (g ++ '=' :: s)) =
      packedTail.readings before (name.text ++ (g ++ '=' :: s)) := by
  apply Pattern.readings_repeated_append_of_dead
  intro a rest ha split
  obtain ⟨type, known, x, s', split', text, nonempty, blank'⟩ := mem_parameterType ha
  have words : ∀ type ∈ parameterTypes, ∀ c ∈ type, Text.isWord c = true := by decide
  have ends : Pattern.Stops Text.isWord (g ++ '=' :: s) :=
    Pattern.stops_gap blank (.inr (Pattern.stops_cons.mpr (by decide)))
  have ends' : Pattern.Stops Text.isWord (x ++ s') := Pattern.stops_gap blank' (.inl nonempty)
  obtain ⟨rfl, same⟩ := Pattern.run_unique split' name.word ends (words type known) ends'
  -- what is left begins with the rest of the gap or with the mark behind the name
  have visible : Pattern.Stops Text.isBlank ('=' :: s) := Pattern.stops_cons.mpr (by decide)
  obtain ⟨g', rfl⟩ := Pattern.front_of_stops (same ▸ List.prefix_append x s') blank' visible
  have left : rest = g' ++ '=' :: s := by
    simpa [text] using split.symm
  rw [left]
  exact refuses_behind_name fun c hc => blank c (by simp [hc])

def valueTail : Pattern :=
  .blanks ++ .group 2 (.atLeastOne inValue)

theorem takes_valueTail {g v : Text} (blank : ∀ c ∈ g, Text.isBlank c = true) (nonempty : v ≠ [])
    (all : ∀ c ∈ v, inValue c = true) (visible : Pattern.Stops Text.isBlank v) (ends : Pattern.Stops inValue s) :
    valueTail.Takes before (g ++ v) [(2, v)] s :=
  Pattern.Takes.append (Pattern.takes_blanks blank (Pattern.stops_append nonempty visible))
    ((Pattern.takes_atLeastOne nonempty all ends).group 2)

/-- Where no value is written, the gap in front of it is one. -/
theorem takes_valueTail_space (ends : Pattern.Stops inValue s) (visible : Pattern.Stops Text.isBlank s) :
    valueTail.Takes before [' '] [(2, [' '])] s := by
  have stretches : stretches Text.isBlank ([' '] ++ s) = [[], [' ']] := by
    rw [Pattern.stretches_append_of_stops visible]
    decide
  have none : (Pattern.group 2 (.atLeastOne inValue)).Refuses (lastOf before [' ']) s :=
    Pattern.Refuses.group (Pattern.refuses_of_stops rfl fun c hc => by simpa using ends c hc) 2
  have taken : (Pattern.group 2 (.atLeastOne inValue)).Takes before [' '] [(2, [' '])] s :=
    (Pattern.takes_atLeastOne (by decide) (by decide) ends).group 2
  have readings : valueTail.readings before ([' '] ++ s) =
      ((Pattern.group 2 (.atLeastOne inValue)).readings (lastOf before [' ']) s).map (Reading.append ⟨[' '], []⟩) ++
        ((Pattern.group 2 (.atLeastOne inValue)).readings before ([' '] ++ s)).map (Reading.append ⟨[], []⟩) := by
    rw [valueTail, Pattern.readings_append, Pattern.blanks, Pattern.readings, stretches]
    simp
  rw [Pattern.Takes] at taken ⊢
  rw [readings, none, List.map_nil, List.nil_append, List.head?_map, taken]
  rfl

section Parameter

variable (name : Name) {g₁ g₂ v z : Text} (apart : g₁ ≠ [])
  (blank₁ : ∀ c ∈ g₁, Text.isBlank c = true) (blank₂ : ∀ c ∈ g₂, Text.isBlank c = true)
  (value : ∀ before, valueTail.Takes before z [(2, v)] s)
include blank₂ value

theorem takes_nameTail :
    nameTail.Takes before (name.text ++ (g₂ ++ (['='] ++ z))) [(2, v), (1, name.text)] s := by
  have wordEnds : Pattern.Stops Text.isWord ((g₂ ++ (['='] ++ z)) ++ s) := by
    rw [List.append_assoc]
    exact Pattern.stops_gap blank₂ (.inr (Pattern.stops_cons.mpr (by decide)))
  have mark : Pattern.Stops Text.isBlank ((['='] ++ z) ++ s) := Pattern.stops_cons.mpr (by decide)
  exact ((Pattern.takes_atLeastOne name.nonempty name.word wordEnds).group 1).append
    ((Pattern.takes_blanks blank₂ mark).append (Pattern.takes_char.append (value _)))

theorem takes_typedName :
    (.repeated parameterType ++ packedTail : Pattern).Takes before
      (name.text ++ (g₂ ++ (['='] ++ z))) [(2, v), (1, name.text)] s := by
  have unpacked : (.char '[' ++ unbracketed ++ .char ']' ++ .blanks ++ nameTail : Pattern).Refuses before
      (name.text ++ (g₂ ++ (['='] ++ z)) ++ s) := by
    apply Pattern.refuses_of_stops rfl
    intro c hc
    rw [List.append_assoc, List.head?_append_of_ne_nil _ name.nonempty] at hc
    have word := name.word c (List.mem_of_mem_head? hc)
    have plain : c ≠ '[' := Text.ne_of_isWord word (by decide)
    simp [Pattern.char, Pattern.opens, Pattern.nullable, plain]
  have untyped : (.repeated parameterType ++ packedTail : Pattern).readings before
      (name.text ++ (g₂ ++ '=' :: (z ++ s))) =
        packedTail.readings before (name.text ++ (g₂ ++ '=' :: (z ++ s))) :=
    readings_name name blank₂
  have taken : packedTail.Takes before (name.text ++ (g₂ ++ (['='] ++ z)))
      [(2, v), (1, name.text)] s :=
    (takes_nameTail name blank₂ value).skip unpacked
  rw [Pattern.Takes] at taken ⊢
  rw [← taken]
  simpa using congrArg List.head? untyped

include apart blank₁

theorem takes_parameter_value (outside : before.any Text.isWord = false) :
    parameterPattern.Takes before
      ("parameter" ++ (g₁ ++ (name.text ++ (g₂ ++ (['='] ++ z))))) [(2, v), (1, name.text)] s := by
  have nameStarts : Pattern.Stops Text.isBlank ((name.text ++ (g₂ ++ (['='] ++ z))) ++ s) := by
    rw [List.append_assoc]
    exact name.stops_blank _
  have edge : Pattern.boundary.Takes before [] [] ("parameter" ++ (g₁ ++ (name.text ++
      (g₂ ++ (['='] ++ z)))) ++ s) :=
    .boundary (Pattern.isEdge_front outside (by decide))
  have taken : (.boundary ++ (.exactly "parameter" ++ (.gap ++ (.repeated parameterType ++ packedTail))) :
      Pattern).Takes before ("parameter" ++ (g₁ ++ (name.text ++ (g₂ ++ (['='] ++ z)))))
        [(2, v), (1, name.text)] s :=
    edge.append (Pattern.takes_exactly.append ((Pattern.takes_atLeastOne apart blank₁ nameStarts).append
      (takes_typedName name blank₂ value)))
  rw [Pattern.Takes] at taken ⊢
  rw [readings_parameterPattern]
  exact taken

end Parameter

/-- A parameter is read up to the next comma, semicolon or line break behind its value begins. -/
theorem takes_parameter (name : Name) {g₁ g₂ g₃ v : Text} (apart : g₁ ≠ [])
    (blank₁ : ∀ c ∈ g₁, Text.isBlank c = true) (blank₂ : ∀ c ∈ g₂, Text.isBlank c = true)
    (blank₃ : ∀ c ∈ g₃, Text.isBlank c = true) (nonempty : v ≠ []) (all : ∀ c ∈ v, inValue c = true)
    (visible : Pattern.Stops Text.isBlank v) (ends : Pattern.Stops inValue s)
    (outside : before.any Text.isWord = false) :
    parameterPattern.Takes before
      ("parameter" ++ (g₁ ++ (name.text ++ (g₂ ++ (['='] ++ (g₃ ++ v)))))) [(2, v), (1, name.text)] s :=
  takes_parameter_value name apart blank₁ blank₂
    (fun _ => takes_valueTail blank₃ nonempty all visible ends) outside

end Pinout.Verilog
