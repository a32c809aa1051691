import Pinout.Proofs.Pattern.Horizon

/-! # Passages

What a search does with a part of a text, whatever stands in front of the part and behind it. The parts
of a text can be looked at one by one, and what is known of them put together.
-/

namespace Pinout.Pattern

variable {p : Pattern} {before : Option Char} {c : Char} {s t x x' y y' : Text} {replacement : Text → Text}

def Passes (p : Pattern) (x : Text) : Prop :=
  ∀ before s, p.Quiet before x s

theorem passes_nil (p : Pattern) : p.Passes [] := fun before s => p.quiet_nil before s

theorem Passes.append (first : p.Passes x) (second : p.Passes y) : p.Passes (x ++ y) := fun before s =>
  (first before (y ++ s)).append (second _ s)

theorem passes_of_closed (reads : p.nullable = false) (h : ∀ c ∈ x, p.opens c = false) : p.Passes x := fun _ _ =>
  quiet_of_closed reads h

theorem passes_exactly_pair {a b : Char} (h : ¬ [a, b] <:+: x) (first : c ≠ a) (second : c ≠ b) :
    (exactly [a, b]).Passes (x ++ [c]) := by
  intro before s
  refine Quiet.append (quiet_of_forall fun y d z split => refuses_exactly ?_) ⟨refuses_exactly ?_, trivial⟩
  · exact not_isPrefix_pair h (stops_cons.mpr (by simpa using second)) split
  · rintro ⟨t, split⟩
    exact first (List.cons.inj split).1.symm

theorem not_infix_of_passes_exactly {k : Text} (h : (exactly k).Passes x) (nonempty : k ≠ []) : ¬ k <:+: x := by
  rintro ⟨u, v, rfl⟩
  obtain ⟨c, k, rfl⟩ := List.exists_cons_of_ne_nil nonempty
  have quiet := h none []
  rw [List.append_assoc, List.cons_append] at quiet
  have read : (exactly (c :: k)).Takes (lastOf none u) (c :: k) [] (v ++ []) := takes_exactly
  have refuses := quiet.refuses
  rw [List.append_assoc] at refuses
  exact refuses_iff.mp refuses _ read.mem

/-- The text is replaced by another one, wherever it stands. -/
def Rewrites (p : Pattern) (replacement : Text → Text) (x y : Text) : Prop :=
  ∀ before s, p.rewrite replacement before (x ++ s) = y ++ p.rewrite replacement (lastOf before x) s

theorem rewrites_nil : p.Rewrites replacement [] [] := fun _ _ => rfl

theorem Passes.rewrites (h : p.Passes x) : p.Rewrites replacement x x := fun before s =>
  rewrite_of_quiet (h before s)

theorem Rewrites.append (first : p.Rewrites replacement x y) (second : p.Rewrites replacement x' y') :
    p.Rewrites replacement (x ++ x') (y ++ y') := fun before s => by
  rw [List.append_assoc, first, second, lastOf_append, List.append_assoc]

theorem Rewrites.replaceAll_eq (h : p.Rewrites replacement x y) : p.replaceAll replacement x = y := by
  have all := h none []
  rwa [List.append_nil, rewrite_nil, List.append_nil, ← replaceAll_eq_rewrite] at all

end Pinout.Pattern
