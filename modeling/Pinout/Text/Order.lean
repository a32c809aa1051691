import Pinout.Text.Basic

/-! # Order of texts

Texts are ordered by their first different code point, and a text stands before its continuations.
The order is total and transitive, so sorting by it makes an ascending list.
-/

namespace Pinout

def precedesBy {α : Type} (number : α → Nat) : List α → List α → Bool
  | [], _ => true
  | _ :: _, [] => false
  | a :: s, b :: t => if number a = number b then precedesBy number s t else number a < number b

theorem precedesBy_total {α : Type} (number : α → Nat) (s t : List α) :
    (precedesBy number s t || precedesBy number t s) = true := by
  fun_induction precedesBy number s t with
  | case1 => rfl
  | case2 => rfl
  | case3 a s b t same ih => simpa [precedesBy, same] using ih
  | case4 a s b t other =>
    simp [precedesBy, Ne.symm other]
    omega

theorem precedesBy_trans {α : Type} {number : α → Nat} {s t u : List α} (hst : precedesBy number s t = true)
    (htu : precedesBy number t u = true) : precedesBy number s u = true := by
  induction s generalizing t u with
  | nil => rfl
  | cons a s ih =>
    cases t with
    | nil => simp [precedesBy] at hst
    | cons b t =>
      cases u with
      | nil => simp [precedesBy] at htu
      | cons c u =>
        simp only [precedesBy] at hst htu ⊢
        split at hst
        · next first =>
          split at htu
          · next second =>
            rw [if_pos (first.trans second)]
            exact ih hst htu
          · next second => rwa [if_neg (first ▸ second), first]
        · next first =>
          split at htu
          · next second => rwa [if_neg (second ▸ first), ← second]
          · next second =>
            rw [decide_eq_true_eq] at hst htu
            rw [if_neg (Nat.ne_of_lt (Nat.lt_trans hst htu)), decide_eq_true_eq]
            exact Nat.lt_trans hst htu

/-- Whether `s` stands before `t` or equals it. -/
def RawText.precedes (s t : RawText) : Bool :=
  precedesBy CodePoint.toNat s t

namespace Text

def precedes (s t : Text) : Bool :=
  precedesBy Char.toNat s t

/-- The texts in ascending order. -/
def sorted (texts : List Text) : List Text :=
  texts.mergeSort precedes

theorem pairwise_sorted (texts : List Text) :
    (sorted texts).Pairwise fun s t => precedes s t = true :=
  List.pairwise_mergeSort (fun _ _ _ => precedesBy_trans) (precedesBy_total _) texts

end Text

end Pinout
