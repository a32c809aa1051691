import Mathlib.Data.List.Basic
import Pinout.Text.Basic

/-! # Neighbours in a text

Comments are opened and closed by two neighbouring characters. Such a pair of a joined text lies in one
of the two parts or across the joint, and a text that holds a pair has a first place for it.
-/

namespace Pinout.Text

variable {a b c : Char} {s t : Text}

theorem pair_infix_cons : [a, b] <:+: c :: t ↔ (c = a ∧ t.head? = some b) ∨ [a, b] <:+: t := by
  rw [List.infix_cons_iff, List.cons_prefix_cons, eq_comm]
  cases t with
  | nil => simp
  | cons d t => simp [eq_comm]

theorem pair_infix_append :
    [a, b] <:+: s ++ t ↔ [a, b] <:+: s ∨ [a, b] <:+: t ∨ (s.getLast? = some a ∧ t.head? = some b) := by
  induction s with
  | nil => simp
  | cons c s ih =>
      rw [List.cons_append, pair_infix_cons, pair_infix_cons, ih, List.head?_append]
      cases s <;> grind

theorem exists_first_pair (h : [a, b] <:+: t) :
    ∃ x s, t = x ++ a :: b :: s ∧ ¬ [a, b] <:+: x ++ [a] := by
  induction t with
  | nil => simp at h
  | cons c t ih =>
      by_cases front : c = a ∧ t.head? = some b
      · obtain ⟨rfl, second⟩ := front
        obtain ⟨s, rfl⟩ := List.head?_eq_some_iff.mp second
        exact ⟨[], s, rfl, fun short => by simpa using short.length_le⟩
      · obtain ⟨x, s, rfl, first⟩ := ih ((pair_infix_cons.mp h).resolve_left front)
        refine ⟨c :: x, s, rfl, fun found => ?_⟩
        rw [List.cons_append, pair_infix_cons] at found
        rcases found with there | inside
        · cases x with
          | nil => exact front (by simpa using there)
          | cons d x => exact front there
        · exact first inside

theorem takeWhile_prefix_append {accepts : Char → Bool} : s.takeWhile accepts <+: (s ++ t).takeWhile accepts := by
  rw [List.takeWhile_append]
  split
  · exact (List.takeWhile_prefix accepts).trans (List.prefix_append s _)
  · exact List.prefix_refl _

theorem append_cons_of_not_mem {u v x : Text} (absent : a ∉ x) (split : u ++ a :: v = x ++ s) :
    ∃ y, u = x ++ y ∧ s = y ++ a :: v := by
  rcases List.append_eq_append_iff.mp split with ⟨y, rfl, rest⟩ | found
  · cases y with
    | nil => exact ⟨[], by simp, rest.symm⟩
    | cons c y =>
        obtain ⟨rfl, -⟩ := List.cons.inj rest
        exact absurd (by simp) absent
  · exact found

/-- A stretch without the character lies in front of a place of the character or behind it. -/
theorem before_or_behind {k u v x : Text} (absent : a ∉ k) (nonempty : k ≠ []) (split : x ++ a :: s = u ++ (k ++ v)) :
    u ++ k <+: x ∨ ∃ w, u = x ++ a :: w ∧ s = w ++ (k ++ v) := by
  rcases List.append_eq_append_iff.mp split with ⟨w, rfl, rest⟩ | ⟨w, rfl, rest⟩
  · cases w with
    | nil =>
        obtain ⟨c, k, rfl⟩ := List.exists_cons_of_ne_nil nonempty
        obtain ⟨rfl, -⟩ := List.cons.inj rest
        exact absurd List.mem_cons_self absent
    | cons c w =>
        obtain ⟨rfl, behind⟩ := List.cons.inj rest
        exact .inr ⟨w, rfl, behind⟩
  · obtain ⟨y, rfl, -⟩ := append_cons_of_not_mem absent rest.symm
    exact .inl ⟨y, List.append_assoc u k y⟩

theorem append_cons_inj {u v x : Text} (absent : a ∉ u) (absent' : a ∉ x)
    (h : u ++ a :: v = x ++ a :: t) : u = x ∧ v = t := by
  obtain ⟨y, rfl, rest⟩ := append_cons_of_not_mem absent' h
  cases y with
  | nil =>
      obtain ⟨-, same⟩ := List.cons.inj rest
      exact ⟨List.append_nil x, same.symm⟩
  | cons c y =>
      obtain ⟨rfl, -⟩ := List.cons.inj rest
      exact absurd (by simp) absent

end Pinout.Text
