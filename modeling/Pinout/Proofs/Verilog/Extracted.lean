import Pinout.Proofs.Extraction
import Pinout.Proofs.Pattern.Found
import Pinout.Proofs.Verilog.Value

/-! # What is extracted from a module

Whatever the source is, the names in an interface are names, a default is a part of the source on one
line in which no more parentheses are closed than opened, and a range is a part of the source without
brackets.
-/

namespace Pinout.Verilog

variable {code source v : Text} {unit : Interface}

/-- A default as one is found in a source. -/
structure IsValue (code v : Text) : Prop where
  part : v <:+: code
  unbroken : ∀ c ∈ v, c ≠ ',' ∧ c ≠ ';' ∧ c ≠ '\n'
  trimmed : Text.trim v = v
  neverCloses : NeverCloses v

/-- A range as one is found in a source, or the width of a single bit. -/
structure IsRange (code w : Text) : Prop where
  part : w = scalarWidth ∨ w <:+: code
  unbracketed : ∀ c ∈ w, c ≠ '[' ∧ c ≠ ']'
  trimmed : Text.trim w = w

/-- An interface as one is found in a source without comments. -/
structure ExtractedFrom (code : Text) (unit : Interface) : Prop where
  name : unit.name.IsName
  generics : ∀ g ∈ unit.generics, g.name.IsName ∧ ∃ v, g = { name := g.name, default := some v } ∧ IsValue code v
  ports : ∀ p ∈ unit.ports, p.name.IsName ∧ ∃ w, p.width = some w ∧ IsRange code w

theorem isValue_genericOf {found : Match} (h : found ∈ parameterPattern.findAll code) :
    (genericOf found).name.IsName ∧
      ∃ v, genericOf found = { name := (genericOf found).name, default := some v } ∧ IsValue code v := by
  have reads := Pattern.readsIn_of_mem_findAll rfl h
  have name := Pattern.isName_of_readByOne_word (reads.group 1 rfl)
  have value := reads.group?_eq 2 rfl
  rw [Match.group_reading] at name value
  refine ⟨name, _, rfl, ?_⟩
  obtain ⟨body, hbody, before, t, a, read, same⟩ := reads.readByOne value
  obtain rfl := List.mem_singleton.mp hbody
  have plain := (Pattern.mem_atLeastOne read).2.1
  rw [same] at plain
  refine ⟨(isInfix_trimValue _).trans (reads.infix_of_group? value), fun c hc => ?_, ?_, ?_⟩
  · have := plain c ((isInfix_trimValue _).subset hc)
    simpa [and_assoc] using this
  · exact Text.trim_trim _
  · exact neverCloses_trimValue _

theorem isRange_portOf {found : Match} {p : Port} (h : found ∈ portPattern.findAll code)
    (declares : portOf found = .ok p) : p.name.IsName ∧ ∃ w, p.width = some w ∧ IsRange code w := by
  have reads := Pattern.readsIn_of_mem_findAll rfl h
  have name := Pattern.isName_of_readByOne_word (reads.group 4 rfl)
  rw [Match.group_reading] at name
  obtain ⟨direction, -, declares⟩ := Extraction.exists_of_bind_eq_ok declares
  cases declares
  refine ⟨name, _, rfl, ?_⟩
  cases range : found.group? 3 with
  | none => exact ⟨.inl rfl, by decide, by decide⟩
  | some raw =>
      rw [← Match.group?_reading] at range
      obtain ⟨body, hbody, before, t, a, read, rfl⟩ := reads.readByOne range
      obtain rfl := List.mem_singleton.mp hbody
      refine ⟨.inr ((Text.trim_infix _).trans (reads.infix_of_group? range)), fun c hc => ?_, Text.trim_trim _⟩
      have inside := (Text.trim_infix _).subset hc
      constructor
      · rintro rfl
        exact Pattern.not_mem_of_never (by decide) read inside
      · rintro rfl
        exact Pattern.not_mem_of_never (by decide) read inside

/-- Whatever the source is, its interface is made of names and of parts of it. -/
theorem extractedFrom_interface (h : interface source = .ok unit) : ExtractedFrom (stripComments source) unit := by
  obtain ⟨ports, declared, h⟩ := Extraction.exists_of_bind_eq_ok h
  cases h
  refine ⟨Pattern.isName_search? rfl rfl rfl ⟨by decide, by decide⟩ _, fun g hg => ?_, fun p hp => ?_⟩
  · obtain ⟨found, hfound, rfl⟩ := List.mem_map.mp hg
    exact isValue_genericOf hfound
  · obtain ⟨found, hfound, declares⟩ := Extraction.mem_of_mapM_eq_ok declared hp
    exact isRange_portOf hfound declares

end Pinout.Verilog
