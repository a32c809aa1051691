import Mathlib.Data.List.Infix
import Pinout.Proofs.Pattern.Halting

/-! # First readings that a character settles

In front of some characters it is settled what is read first, although other readings may go on behind them.
That is enough for a search, which takes first readings only. An optional part in brackets is settled where
the text does not end inside of the brackets.
-/

namespace Pinout.Pattern

variable {p q : Pattern} {accepts : Char → Bool} {before : Option Char} {c : Char} {s t u x y z : Text}
  {kept : List (Nat × Text)} {fits behind : Text → Prop}

/-- Whatever of a kind stands behind the text, the same is read first and ends within the text, or nothing is read. -/
def FixedFor (p : Pattern) (behind : Text → Prop) (before : Option Char) (x : Text) : Prop :=
  (∃ y z kept, x = y ++ z ∧ ∀ s, behind s → p.Takes before y kept (z ++ s)) ∨ ∀ s, behind s → p.Refuses before (x ++ s)

theorem FixedFor.group (h : p.FixedFor behind before x) (index : Nat) : (group index p).FixedFor behind before x :=
  h.imp (fun ⟨y, z, _, split, takes⟩ => ⟨y, z, _, split, fun s hs => (takes s hs).group index⟩)
    fun refuses s hs => (refuses s hs).group index

/-- An optional part is fixed behind every fixed reading of what stands in front of it. -/
theorem FixedFor.append_optional (first : p.FixedFor behind before x)
    (second : ∀ y z kept, x = y ++ z → (∀ s, behind s → p.Takes before y kept (z ++ s)) →
      q.FixedFor behind (lastOf before y) z) :
    (p ++ optional q).FixedFor behind before x := by
  rcases first with ⟨y, z, kept, rfl, takes⟩ | refuses
  · rcases second y z kept rfl takes with ⟨u, v, more, rfl, takes'⟩ | refuses'
    · refine .inl ⟨y ++ u, v, more ++ kept, (List.append_assoc y u v).symm, fun s hs => ?_⟩
      have taken := takes s hs
      rw [List.append_assoc] at taken
      exact taken.append (takes' s hs).left
    · refine .inl ⟨y, z, kept, rfl, fun s hs => ?_⟩
      have both := (takes s hs).append (y := []) (.nothing (refuses' s hs))
      rwa [List.append_nil] at both
  · exact .inr fun s hs => (refuses s hs).append

/-- Whatever stands behind the character, the same is read first and ends in front of it, or nothing is read. -/
def Settled (p : Pattern) (c : Char) (before : Option Char) (x : Text) : Prop :=
  (∃ y z kept, x = y ++ z ∧ ∀ s, p.Takes before y kept (z ++ c :: s)) ∨ ∀ s, p.Refuses before (x ++ c :: s)

theorem settled_iff : p.Settled c before x ↔ p.FixedFor (∃ s, · = c :: s) before x := by
  simp only [Settled, FixedFor, forall_exists_index, forall_eq_apply_imp_iff]

theorem settled_of_readings {told : List Reading} (same : ∀ s, p.readings before (x ++ c :: s) = told)
    (inside : ∀ a ∈ told, a.text <+: x) : p.Settled c before x := by
  cases told with
  | nil => exact .inr same
  | cons a rest =>
      obtain ⟨z, rfl⟩ := inside a List.mem_cons_self
      refine .inl ⟨a.text, z, a.kept, rfl, fun s => ?_⟩
      rw [Takes, ← List.append_assoc, same]
      rfl

theorem HaltsAt.settled (halts : p.HaltsAt c fits) (fit : fits x) : p.Settled c before x :=
  settled_of_readings (fun _ => halts.same fit) (halts.inside fit)

theorem settled_of_never (never : p.mayRead c = false) (before : Option Char) (x : Text) : p.Settled c before x := by
  have halts : p.HaltsAt c fun _ => True := haltsAt_of_never never
  exact halts.settled trivial

theorem EndsAt.settled {d : Char} (ends : p.EndsAt d) (mem : d ∈ x) : p.Settled c before x :=
  settled_of_readings (fun s => ends.readings_append mem (c :: s)) fun _ => front_of_mem

theorem Settled.append_optional (first : p.Settled c before x)
    (second : ∀ y z kept, x = y ++ z → (∀ s, p.Takes before y kept (z ++ c :: s)) → q.Settled c (lastOf before y) z) :
    (p ++ optional q).Settled c before x :=
  settled_iff.mpr <| (settled_iff.mp first).append_optional fun y z kept split takes =>
    settled_iff.mp (second y z kept split fun s => takes _ ⟨s, rfl⟩)

theorem Settled.group (h : p.Settled c before x) (index : Nat) : (Pattern.group index p).Settled c before x :=
  settled_iff.mpr ((settled_iff.mp h).group index)

/-- Whatever stands behind the text, the same is read first and ends within the text, or nothing is read. -/
def Decided (p : Pattern) (before : Option Char) (x : Text) : Prop :=
  (∃ y z kept, x = y ++ z ∧ ∀ s, p.Takes before y kept (z ++ s)) ∨ ∀ s, p.Refuses before (x ++ s)

theorem decided_iff : p.Decided before x ↔ p.FixedFor (fun _ => True) before x := by
  simp only [Decided, FixedFor, forall_const]

theorem Settled.decided (h : p.Settled c before x) : p.Decided before (x ++ [c]) := by
  rcases h with ⟨y, z, kept, rfl, takes⟩ | refuses
  · refine .inl ⟨y, z ++ [c], kept, List.append_assoc y z [c], fun s => ?_⟩
    rw [List.append_assoc]
    exact takes s
  · refine .inr fun s => ?_
    rw [List.append_assoc]
    exact refuses s

theorem Decided.append_optional (first : p.Decided before x)
    (second : ∀ y z kept, x = y ++ z → (∀ s, p.Takes before y kept (z ++ s)) → q.Decided (lastOf before y) z) :
    (p ++ optional q).Decided before x :=
  decided_iff.mpr <| (decided_iff.mp first).append_optional fun y z kept split takes =>
    decided_iff.mp (second y z kept split fun s => takes s trivial)

theorem Decided.group (h : p.Decided before x) (index : Nat) : (group index p).Decided before x :=
  decided_iff.mpr ((decided_iff.mp h).group index)

/-- What is found in a text that decides each of its places is found whatever stands behind the text. -/
theorem scan_append_of_decided (decided : ∀ before y, y ≠ [] → y <:+ x → p.Decided before y) (reads : p.nullable = false)
    (s : Text) : p.scan before (x ++ s) = p.scan before x ++ p.scan (lastOf before x) s := by
  induction x using Text.shorter_induction generalizing before with
  | step x shorter =>
      cases x with
      | nil =>
          rw [scan_nil reads]
          rfl
      | cons d x =>
          rcases decided before (d :: x) (by simp) (List.suffix_refl _) with ⟨y, z, kept, split, takes⟩ | refuses
          · have nonempty := (takes []).ne_nil reads
            have less : z.length < (d :: x).length := by
              have moved := List.length_pos_of_ne_nil nonempty
              rw [split, List.length_append]
              omega
            have behind : p.scan (lastOf before y) (z ++ s) = _ := shorter z less
              fun before v more suffix => decided before v more (split ▸ suffix.trans (List.suffix_append y z))
            have alone := scan_of_takes (takes []) nonempty
            rw [List.append_nil] at alone
            rw [split, List.append_assoc, scan_of_takes (takes s) nonempty, alone, behind, List.cons_append, lastOf_append]
          · have here : ∀ s, p.Refuses before (d :: (x ++ s)) := refuses
            have alone := here []
            rw [List.append_nil] at alone
            rw [List.cons_append, scan_of_refuses (here s), scan_of_refuses alone, lastOf_cons]
            exact shorter x (Nat.lt_succ_self _)
              fun before v more suffix => decided before v more (suffix.trans (List.suffix_cons d x))

theorem scan_append_cons_of_decided (decided : ∀ before y, y <:+ x → p.Decided before (y ++ [c]))
    (reads : p.nullable = false) (s : Text) :
    p.scan before (x ++ c :: s) = p.scan before (x ++ [c]) ++ p.scan (some c) s := by
  have joined : p.scan before ((x ++ [c]) ++ s) = _ :=
    scan_append_of_decided (fun before y nonempty suffix => by
      obtain ⟨z, rfl, behind⟩ := (List.suffix_concat_iff.mp suffix).resolve_left nonempty
      exact decided before z behind) reads s
  rwa [List.append_assoc, List.singleton_append, lastOf_append] at joined

theorem scan_append_of_settled (settled : ∀ before y, y ≠ [] → y <:+ x → p.Settled c before y)
    (reads : p.nullable = false) (never : p.opens c = false) (s : Text) :
    p.scan before (x ++ c :: s) = p.scan before (x ++ [c]) ++ p.scan (some c) s := by
  refine scan_append_cons_of_decided (fun before y suffix => ?_) reads s
  by_cases empty : y = []
  · rw [empty]
    exact .inr fun s => refuses_of_stops reads (stops_cons.mpr never)
  · exact (settled before y empty suffix).decided

theorem HaltsAt.scan_append (halts : p.HaltsAt c fits) (closed : ClosedBehind fits) (reads : p.nullable = false)
    (never : p.opens c = false) (fit : fits x) (s : Text) :
    p.scan before (x ++ c :: s) = p.scan before (x ++ [c]) ++ p.scan (some c) s := by
  refine scan_append_of_settled (fun before y _ suffix => halts.settled ?_) reads never s
  obtain ⟨u, rfl⟩ := suffix
  exact closed u y fit

end Pinout.Pattern
