import Pinout.Proofs.Pattern.Groups
import Pinout.Proofs.Pattern.Horizon

/-! # What is found

A match is a reading at some place of the text. So whatever it keeps is a part of the text, and it was
read by a group of the pattern.
-/

namespace Pinout

/-- A name: word characters, at least one. -/
structure Text.IsName (t : Text) : Prop where
  nonempty : t ≠ []
  word : ∀ c ∈ t, isWord c = true

theorem Text.IsName.not_mem {c : Char} {t : Text} (name : t.IsName) (plain : isWord c = false) : c ∉ t :=
  fun hc => ne_of_isWord (name.word c hc) plain rfl

namespace Pattern

variable {p : Pattern} {before : Option Char} {t x : Text} {index : Nat} {a : Reading}

theorem infix_of_mem_kept (h : a ∈ p.readings before t) (kept : (index, x) ∈ a.kept) : x <:+: a.text := by
  replace h := reads_of_mem h
  induction h with
  | empty | one | boundary | many | few | done => cases kept
  | sequence _ _ first second | again _ _ _ first second =>
      rcases List.mem_append.mp kept with kept | kept
      · exact (second kept).trans (List.suffix_append _ _).isInfix
      · exact (first kept).trans (List.prefix_append _ _).isInfix
  | left _ ih | right _ ih => exact ih kept
  | group _ _ ih =>
      rcases List.mem_cons.mp kept with same | kept
      · obtain ⟨-, rfl⟩ := Prod.mk.inj same
        exact List.infix_rfl
      · exact ih kept

/-- Whether every reading that keeps something under `index` also keeps something under `other`. -/
def keepsWith : Pattern → (index other : Nat) → Bool
  | empty, _, _ | one _, _, _ | boundary, _, _ | many _, _, _ | few _, _, _ => true
  | sequence first second, index, other =>
    first.alwaysKeeps other || second.alwaysKeeps other ||
      (first.keepsWith index other && second.keepsWith index other)
  | choice first second, index, other => first.keepsWith index other && second.keepsWith index other
  | repeated body, index, other => body.keepsWith index other
  | group number body, index, other =>
    number == other || body.alwaysKeeps other || (number != index && body.keepsWith index other)

theorem exists_kept_with {other : Nat} (h : a ∈ p.readings before t) (kept : (index, x) ∈ a.kept)
    (together : p.keepsWith index other = true) : ∃ y, (other, y) ∈ a.kept := by
  replace h := reads_of_mem h
  induction h with
  | empty | one | boundary | many | few | done => cases kept
  | sequence hfirst hsecond first second =>
      simp only [keepsWith, Bool.or_eq_true, Bool.and_eq_true] at together
      rcases together with (always | always) | ⟨left, right⟩
      · exact (exists_kept hfirst.mem always).imp fun _ => List.mem_append_right _
      · exact (exists_kept hsecond.mem always).imp fun _ => List.mem_append_left _
      · rcases List.mem_append.mp kept with kept | kept
        · exact (second kept right).imp fun _ => List.mem_append_left _
        · exact (first kept left).imp fun _ => List.mem_append_right _
  | left _ ih => exact ih kept (Bool.and_eq_true_iff.mp together).1
  | right _ ih => exact ih kept (Bool.and_eq_true_iff.mp together).2
  | again _ _ _ first second =>
      rcases List.mem_append.mp kept with kept | kept
      · exact (second kept together).imp fun _ => List.mem_append_left _
      · exact (first kept together).imp fun _ => List.mem_append_right _
  | @group _ _ _ inner _ hinner ih =>
      simp only [keepsWith, Bool.or_eq_true, Bool.and_eq_true, beq_iff_eq, bne_iff_ne] at together
      rcases together with (rfl | always) | ⟨different, together⟩
      · exact ⟨inner.text, List.mem_cons_self⟩
      · exact (exists_kept hinner.mem always).imp fun _ => List.mem_cons_of_mem _
      · rcases List.mem_cons.mp kept with same | kept
        · exact absurd (Prod.mk.inj same).1.symm different
        · exact (ih kept together).imp fun _ => List.mem_cons_of_mem _

/-- The pattern reads `a` somewhere in the text. -/
def ReadsIn (p : Pattern) (t : Text) (a : Reading) : Prop :=
  ∃ u s, t = u ++ (a.text ++ s) ∧ a ∈ p.readings (lastOf none u) (a.text ++ s)

theorem exists_place_of_mem_scan (reads : p.nullable = false) (h : a ∈ p.scan before t) :
    ∃ u s, t = u ++ (a.text ++ s) ∧ p.Takes (lastOf before u) a.text a.kept s := by
  induction before, t using search_induction reads with
  | nil before =>
      rw [scan_nil reads] at h
      cases h
  | refused before c s refuses ih =>
      have passed : p.scan before ([c] ++ s) = p.scan (some c) s := scan_of_quiet ⟨refuses, trivial⟩
      rw [List.singleton_append] at passed
      rw [passed] at h
      obtain ⟨u, s, rfl, read⟩ := ih h
      exact ⟨c :: u, s, rfl, read⟩
  | taken before x kept s nonempty takes ih =>
      rw [scan_of_takes takes nonempty] at h
      rcases List.mem_cons.mp h with rfl | h
      · exact ⟨[], s, rfl, takes⟩
      · obtain ⟨u, s, rfl, read⟩ := ih h
        exact ⟨x ++ u, s, (List.append_assoc _ _ _).symm, by rwa [lastOf_append]⟩

theorem readsIn_of_mem_findAll (reads : p.nullable = false) {found : Match} (h : found ∈ p.findAll t) :
    p.ReadsIn t found.reading := by
  have scanned := List.mem_map_of_mem (f := Match.reading) h
  rw [reading_findAll] at scanned
  obtain ⟨u, s, split, takes⟩ := exists_place_of_mem_scan reads scanned
  exact ⟨u, s, split, takes.mem⟩

theorem readsIn_of_search? (reads : p.nullable = false) {found : Match} (h : p.search? t = some found) :
    p.ReadsIn t found.reading := by
  obtain ⟨u, s, split, -, takes, -, -⟩ := exists_of_find? reads h
  exact ⟨u, s, split, takes.mem⟩

theorem mem_kept_of_group? (h : a.group? index = some x) : (index, x) ∈ a.kept := by
  obtain ⟨front, behind, split, -⟩ := List.lookup_eq_some_iff.mp h
  rw [split]
  simp

theorem group?_eq_of_mem_kept (kept : (index, x) ∈ a.kept) : a.group? index = some (a.group index) := by
  have present : (a.kept.lookup index).isSome = true :=
    List.lookup_isSome_iff.mpr ⟨_, kept, beq_self_eq_true index⟩
  obtain ⟨y, same⟩ := Option.isSome_iff_exists.mp present
  rw [Reading.group, Reading.group?, same]
  rfl

namespace ReadsIn

variable (h : p.ReadsIn t a)
include h

theorem infix_of_group? (kept : a.group? index = some x) : x <:+: t := by
  obtain ⟨u, s, rfl, read⟩ := h
  exact (infix_of_mem_kept read (mem_kept_of_group? kept)).trans ⟨u, s, List.append_assoc _ _ _⟩

theorem readByOne (kept : a.group? index = some x) : ReadByOne (p.groupBodies index) x := by
  obtain ⟨u, s, -, read⟩ := h
  exact readByOne_of_mem_kept read (mem_kept_of_group? kept)

theorem group?_eq (index : Nat) (always : p.alwaysKeeps index = true) : a.group? index = some (a.group index) := by
  obtain ⟨u, s, -, read⟩ := h
  obtain ⟨x, kept⟩ := exists_kept read always
  exact group?_eq_of_mem_kept kept

theorem group?_eq_with (other : Nat) (together : p.keepsWith index other = true) (kept : a.group? index = some x) :
    a.group? other = some (a.group other) := by
  obtain ⟨u, s, -, read⟩ := h
  obtain ⟨y, kept⟩ := exists_kept_with read (mem_kept_of_group? kept) together
  exact group?_eq_of_mem_kept kept

theorem group (index : Nat) (always : p.alwaysKeeps index = true) : ReadByOne (p.groupBodies index) (a.group index) :=
  h.readByOne (h.group?_eq index always)

end ReadsIn

theorem isName_of_readByOne_word (h : ReadByOne [word] x) : x.IsName := by
  obtain ⟨body, hbody, before, t, a, read, rfl⟩ := h
  obtain rfl := List.mem_singleton.mp hbody
  obtain ⟨nonempty, word, -⟩ := mem_atLeastOne read
  exact ⟨nonempty, word⟩

/-- What a pattern that keeps a word is asked for is a name, also if it is not found. -/
theorem isName_search? (reads : p.nullable = false) (always : p.alwaysKeeps 1 = true) (named : p.groupBodies 1 = [word])
    {other : Text} (name : other.IsName) (t : Text) :
    (match p.search? t with
      | some found => found.group 1
      | none => other).IsName := by
  split
  · rename_i found search
    rw [← Match.group_reading]
    exact isName_of_readByOne_word (named ▸ (readsIn_of_search? reads search).group 1 always)
  · exact name

end Pattern

end Pinout
