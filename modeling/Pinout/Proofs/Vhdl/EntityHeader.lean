import Pinout.Proofs.Layout.Basic
import Pinout.Vhdl.Header

/-! # The header of an entity

The header of an entity goes from its opening up to the first place at which an end clause can be
read. What stands between them must be quiet for end clauses, whatever else it is.
-/

namespace Pinout.Vhdl

variable {g₁ g₂ body ending s x : Text} {found : Match} {before : Option Char} {name : Name}

/-- A text that opens an entity of that name: the keywords around the name, with gaps between them. -/
inductive IsOpening (name : Name) : Text → Prop
  | mk {entity g₁ g₂ is : Text} (keyword : Pattern.Spells "entity" entity) (apart₁ : g₁ ≠ [])
    (blank₁ : ∀ c ∈ g₁, Text.isBlank c = true) (apart₂ : g₂ ≠ []) (blank₂ : ∀ c ∈ g₂, Text.isBlank c = true)
    (keyword' : Pattern.Spells "is" is) : IsOpening name (entity ++ g₁ ++ name.text ++ g₂ ++ is)

theorem IsOpening.takes (h : IsOpening name x) (outside : before.any Text.isWord = false)
    (wordEnds : Pattern.Stops Text.isWord s) : entityPattern.Takes before x [(1, name.text)] s := by
  obtain @⟨entity, g₁, g₂, is, keyword, apart₁, blank₁, apart₂, blank₂, keyword'⟩ := h
  let isName : Name := ⟨is, keyword'.ne_nil (by decide), keyword'.word (by decide)⟩
  have edge : Pattern.boundary.Takes before [] [] (entity ++ (g₁ ++ (name.text ++ (g₂ ++ (is ++ s))))) := by
    obtain ⟨c, w, rfl⟩ := List.exists_cons_of_ne_nil (keyword.ne_nil (by decide))
    exact .boundary (Pattern.isEdge_front outside (keyword.word (by decide) c List.mem_cons_self))
  have nameEnds : Pattern.Stops Text.isWord (g₂ ++ (is ++ s)) := Pattern.stops_gap blank₂ (.inl apart₂)
  have front := ((edge.append (Pattern.takes_keyword keyword)).gap apart₁ blank₁
    (name.stops_blank _)).append ((Pattern.takes_atLeastOne name.nonempty name.word nameEnds).group 1)
  have whole := (front.gap apart₂ blank₂ (isName.stops_blank s)).append (Pattern.takes_keyword keyword')
  have last : Pattern.boundary.Takes (lastOf before (entity ++ g₁ ++ name.text ++ g₂ ++ is)) [] [] s := by
    rw [lastOf_append]
    exact .boundary (Pattern.isEdge_of_word (Pattern.any_lastOf isName.nonempty isName.word) wordEnds)
  have taken := Pattern.Takes.append (y := []) whole last
  rwa [List.append_nil] at taken

theorem isOpening_of_mem {a : Reading} (h : a ∈ entityPattern.readings before (a.text ++ s)) :
    ∃ name, IsOpening name a.text ∧ a.kept = [(1, name.text)] ∧ Pattern.Stops Text.isWord s := by
  obtain ⟨_, h, _, split, _, last, rfl⟩ := Pattern.exists_of_mem_append h
  obtain ⟨_, h, _, -, is, his, rfl⟩ := Pattern.exists_of_mem_append h
  obtain ⟨_, h, _, -, g₂, hg₂, rfl⟩ := Pattern.exists_of_mem_append h
  obtain ⟨_, h, _, -, named, hnamed, rfl⟩ := Pattern.exists_of_mem_append h
  obtain ⟨_, h, _, -, g₁, hg₁, rfl⟩ := Pattern.exists_of_mem_append h
  obtain ⟨_, edge, _, -, entity, hentity, rfl⟩ := Pattern.exists_of_mem_append h
  obtain ⟨-, rfl⟩ := Pattern.mem_boundary.mp edge
  obtain ⟨edge', rfl⟩ := Pattern.mem_boundary.mp last
  obtain ⟨word, hword, rfl⟩ := List.mem_map.mp hnamed
  obtain ⟨none₁, keyword⟩ := Pattern.mem_keyword hentity
  obtain ⟨apart₁, blank₁, none₂⟩ := Pattern.mem_atLeastOne hg₁
  obtain ⟨nonempty, letters, none₃⟩ := Pattern.mem_atLeastOne hword
  obtain ⟨apart₂, blank₂, none₄⟩ := Pattern.mem_atLeastOne hg₂
  obtain ⟨none₅, keyword'⟩ := Pattern.mem_keyword his
  have opening : IsOpening ⟨word.text, nonempty, letters⟩ _ := .mk keyword apart₁ blank₁ apart₂ blank₂ keyword'
  refine ⟨⟨word.text, nonempty, letters⟩, ?_, ?_, ?_⟩
  · simpa [Reading.append, Reading.nothing, Reading.keep] using opening
  · simp [Reading.append, Reading.nothing, Reading.keep, none₁, none₂, none₃, none₄, none₅]
  · obtain rfl : s = _ := by simpa [Reading.append, Reading.nothing] using split
    rw [Reading.append, lastOf_append] at edge'
    exact Pattern.stops_of_isEdge (Pattern.any_lastOf (keyword'.ne_nil (by decide)) (keyword'.word (by decide))) edge'

def entityKeyword : Text := "entity"

def isKeyword : Text := "is"

def opening (name : Name) (g₁ g₂ : Text) : Text :=
  entityKeyword ++ g₁ ++ name.text ++ g₂ ++ isKeyword

theorem lastOf_opening (name : Name) (before : Option Char) : lastOf before (opening name g₁ g₂) = some 's' := by
  rw [opening, lastOf_append]
  rfl

variable (name : Name) (apart₁ : g₁ ≠ []) (apart₂ : g₂ ≠ []) (blank₁ : ∀ c ∈ g₁, Text.isBlank c = true)
  (blank₂ : ∀ c ∈ g₂, Text.isBlank c = true)
include apart₁ apart₂ blank₁ blank₂

theorem takes_entityPattern (wordEnds : Pattern.Stops Text.isWord s) :
    entityPattern.Takes none (opening name g₁ g₂) [(1, name.text)] s :=
  IsOpening.takes (.mk (Spelling.spells ⟨entityKeyword, rfl⟩) apart₁ blank₁ apart₂ blank₂
    (Spelling.spells ⟨isKeyword, rfl⟩)) rfl wordEnds

theorem unitName_opening (wordEnds : Pattern.Stops Text.isWord s)
    (uncommented : stripComments (opening name g₁ g₂ ++ s) = opening name g₁ g₂ ++ s) :
    unitName (opening name g₁ g₂ ++ s) = name.text := by
  obtain ⟨found, search, -, -, reading⟩ := Pattern.find?_of_takes
    (takes_entityPattern name apart₁ apart₂ blank₁ blank₂ wordEnds) 0
  rw [unitName, uncommented, Pattern.search?, Cursor.start, search]
  change found.group 1 = _
  rw [← Match.group_reading, reading]
  rfl

theorem headerOf_opening (wordEnds : Pattern.Stops Text.isWord (body ++ ending))
    (masked : maskStrings (opening name g₁ g₂ ++ (body ++ ending)) = opening name g₁ g₂ ++ (body ++ ending))
    (quiet : entityEndPattern.Quiet (some 's') body ending)
    (ends : ¬ entityEndPattern.Refuses (lastOf (some 's') body) ending) :
    headerOf (opening name g₁ g₂ ++ (body ++ ending)) = opening name g₁ g₂ ++ body := by
  obtain ⟨found, search, start, stop, -⟩ := Pattern.find?_of_takes
    (takes_entityPattern name apart₁ apart₂ blank₁ blank₂ wordEnds) 0
  obtain ⟨clause, closing, place⟩ := Pattern.find?_of_not_refuses ends
    ((opening name g₁ g₂).length + body.length)
  have there := Pattern.find?_of_quiet quiet (opening name g₁ g₂).length
  rw [closing] at there
  simp only [headerOf, Pattern.search?, masked, Cursor.start, search]
  rw [start, stop]
  simp only [Nat.zero_add, Cursor.skip_append, lastOf_opening, there, place, Nat.sub_zero, List.drop_zero]
  rw [← List.length_append, ← List.append_assoc, List.take_left]

/-- The header goes on at least as far as no end clause begins. -/
theorem exists_headerOf_opening (wordEnds : Pattern.Stops Text.isWord (body ++ ending))
    (masked : maskStrings (opening name g₁ g₂ ++ (body ++ ending)) = opening name g₁ g₂ ++ (body ++ ending))
    (quiet : entityEndPattern.Quiet (some 's') body ending) :
    ∃ more, headerOf (opening name g₁ g₂ ++ (body ++ ending)) = opening name g₁ g₂ ++ (body ++ more) := by
  obtain ⟨found, search, start, stop, -⟩ := Pattern.find?_of_takes
    (takes_entityPattern name apart₁ apart₂ blank₁ blank₂ wordEnds) 0
  have there := Pattern.find?_of_quiet quiet (opening name g₁ g₂).length
  simp only [headerOf, Pattern.search?, masked, Cursor.start, search]
  rw [start, stop]
  simp only [Nat.zero_add, Cursor.skip_append, lastOf_opening, there, Nat.sub_zero, List.drop_zero]
  split
  · rename_i clause closing
    have far := Pattern.position_le_of_find? closing
    obtain ⟨n, place⟩ := Nat.exists_eq_add_of_le far
    refine ⟨ending.take n, ?_⟩
    rw [place, ← List.length_append, ← List.append_assoc, ← List.append_assoc, List.take_length_add_append]
  · exact ⟨ending, rfl⟩

end Pinout.Vhdl
