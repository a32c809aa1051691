import Pinout.Proofs.Pattern.Scan

/-! # Groups

What a match keeps under a number was read by a group of that number, wherever the group stands in the
pattern. A group that every way through the pattern passes is never missing.
-/

namespace Pinout.Pattern

variable {p : Pattern} {before : Option Char} {t x : Text} {index : Nat} {a : Reading}

/-- The patterns whose texts are kept under a number. -/
def groupBodies : Pattern → Nat → List Pattern
  | empty, _ | one _, _ | boundary, _ | many _, _ | few _, _ => []
  | sequence first second, index | choice first second, index =>
    first.groupBodies index ++ second.groupBodies index
  | repeated body, index => body.groupBodies index
  | group number body, index =>
    (if number = index then [body] else []) ++ body.groupBodies index

/-- Whether every reading keeps something under a number. -/
def alwaysKeeps : Pattern → Nat → Bool
  | empty, _ | one _, _ | boundary, _ | many _, _ | few _, _ | repeated _, _ => false
  | sequence first second, index => first.alwaysKeeps index || second.alwaysKeeps index
  | choice first second, index => first.alwaysKeeps index && second.alwaysKeeps index
  | group number body, index => number == index || body.alwaysKeeps index

/-- A text is read by one of some patterns somewhere. -/
def ReadByOne (bodies : List Pattern) (x : Text) : Prop :=
  ∃ body ∈ bodies, ∃ before t, ∃ b ∈ body.readings before t, b.text = x

theorem ReadByOne.mono {bodies more : List Pattern} (h : ReadByOne bodies x) (subset : bodies ⊆ more) :
    ReadByOne more x := by
  obtain ⟨body, hbody, read⟩ := h
  exact ⟨body, subset hbody, read⟩

/-- What is kept under a number was read by a group of that number. -/
theorem readByOne_of_mem_kept (h : a ∈ p.readings before t) (kept : (index, x) ∈ a.kept) :
    ReadByOne (p.groupBodies index) x := by
  replace h := reads_of_mem h
  induction h with
  | empty | one | boundary | many | few | done => cases kept
  | sequence _ _ first second =>
      rcases List.mem_append.mp kept with kept | kept
      · exact (second kept).mono (List.subset_append_right _ _)
      · exact (first kept).mono (List.subset_append_left _ _)
  | left _ ih => exact (ih kept).mono (List.subset_append_left _ _)
  | right _ ih => exact (ih kept).mono (List.subset_append_right _ _)
  | again _ _ _ first second => exact (List.mem_append.mp kept).elim second first
  | @group body before t inner number read ih =>
      rcases List.mem_cons.mp kept with same | kept
      · obtain ⟨rfl, rfl⟩ := Prod.mk.inj same
        exact ⟨body, by simp [groupBodies], before, t, inner, read.mem, rfl⟩
      · exact (ih kept).mono (List.subset_append_right _ _)

theorem kept_eq_nil (ungrouped : ∀ index, p.groupBodies index = []) (h : a ∈ p.readings before t) : a.kept = [] :=
  List.eq_nil_iff_forall_not_mem.mpr fun entry mem => by
    obtain ⟨body, found, -⟩ := readByOne_of_mem_kept h mem
    rw [ungrouped] at found
    exact List.not_mem_nil found

theorem exists_kept (h : a ∈ p.readings before t) (always : p.alwaysKeeps index = true) :
    ∃ x, (index, x) ∈ a.kept := by
  replace h := reads_of_mem h
  induction h with
  | empty | one | boundary | many | few | done | again => cases always
  | sequence _ _ first second =>
      rcases Bool.or_eq_true_iff.mp always with always | always
      · exact (first always).imp fun _ => List.mem_append_right _
      · exact (second always).imp fun _ => List.mem_append_left _
  | left _ ih => exact ih (Bool.and_eq_true_iff.mp always).1
  | right _ ih => exact ih (Bool.and_eq_true_iff.mp always).2
  | @group _ _ _ inner _ _ ih =>
      rcases Bool.or_eq_true_iff.mp always with same | always
      · exact ⟨inner.text, by simp [Reading.keep, beq_iff_eq.mp same]⟩
      · exact (ih always).imp fun _ => List.mem_cons_of_mem _

theorem exists_readings_of_mem_scan (h : a ∈ p.scan before t) : ∃ before s, a ∈ p.readings before s := by
  have go : ∀ skip before, a ∈ scan.go p skip before t → ∃ before s, a ∈ p.readings before s := by
    clear h
    induction t with
    | nil =>
        intro skip before h
        cases skip with
        | zero => exact ⟨before, [], List.mem_of_mem_head? (Option.mem_toList.mp h)⟩
        | succ skip => cases h
    | cons c t ih =>
        intro skip before h
        cases skip with
        | zero =>
            rw [scan.go] at h
            split at h
            · rename_i r first
              rcases List.mem_cons.mp h with rfl | h
              · exact ⟨before, c :: t, List.mem_of_mem_head? first⟩
              · exact ih _ _ h
            · exact ih _ _ h
        | succ skip => exact ih _ _ h
  exact go 0 before h

theorem readByOne_group (index : Nat) {found : Match} (h : found ∈ p.findAll t) (always : p.alwaysKeeps index = true) :
    ReadByOne (p.groupBodies index) (found.group index) := by
  have scanned := List.mem_map_of_mem (f := Match.reading) h
  rw [reading_findAll] at scanned
  obtain ⟨before, s, reading⟩ := exists_readings_of_mem_scan scanned
  obtain ⟨x, kept⟩ := exists_kept reading always
  have present : (found.reading.kept.lookup index).isSome = true :=
    List.lookup_isSome_iff.mpr ⟨_, kept, beq_self_eq_true index⟩
  obtain ⟨y, same⟩ := Option.isSome_iff_exists.mp present
  obtain ⟨front, behind, split, -⟩ := List.lookup_eq_some_iff.mp same
  rw [← Match.group_reading, Reading.group, Reading.group?, same]
  exact readByOne_of_mem_kept reading (by simp [split])

end Pinout.Pattern
