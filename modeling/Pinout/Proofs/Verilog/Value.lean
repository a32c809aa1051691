import Pinout.Proofs.Text.Trim
import Pinout.Proofs.Verilog.AnsiHeader

/-! # Values cut back

The last value of a parameter list runs into what follows the list. Cut in front of the first parenthesis that closes
more than was opened, it is the longest part that never does. So a value with balanced parentheses is given back
whatever follows the closed list, and what is cut once is not cut any further.
-/

namespace Pinout.Verilog

variable {c : Char} {t p v y g : Text} {depth : Nat}

/-- At no place of the text more parentheses are closed than opened. -/
def NeverCloses (t : Text) : Prop :=
  ∀ front, front <+: t → front.count ')' ≤ front.count '('

/-- At no place of the text more parentheses are closed than opened, if `depth` are open in front of it. -/
def ClosesAtMost (depth : Nat) (t : Text) : Prop :=
  ∀ front, front <+: t → front.count ')' ≤ depth + front.count '('

theorem closesAtMost_zero_iff : ClosesAtMost 0 t ↔ NeverCloses t := by
  simp only [ClosesAtMost, NeverCloses, Nat.zero_add]

theorem closesAtMost_nil (depth : Nat) : ClosesAtMost depth [] := fun front hf => by
  simp [List.prefix_nil.mp hf]

theorem closesAtMost_cons_iff : ClosesAtMost depth (c :: t) ↔
    ∀ front, front <+: t → (c :: front).count ')' ≤ depth + (c :: front).count '(' := by
  refine ⟨fun h front hf => h _ ((List.prefix_cons_inj c).mpr hf), fun h front hf => ?_⟩
  cases front with
  | nil => simp
  | cons d front =>
      obtain ⟨rfl, inner⟩ := List.cons_prefix_cons.mp hf
      exact h front inner

theorem closesAtMost_opening : ClosesAtMost depth ('(' :: t) ↔ ClosesAtMost (depth + 1) t := by
  refine closesAtMost_cons_iff.trans (forall₂_congr fun front _ => ?_)
  rw [List.count_cons_self, List.count_cons_of_ne (by decide)]
  omega

theorem closesAtMost_closing : ClosesAtMost (depth + 1) (')' :: t) ↔ ClosesAtMost depth t := by
  refine closesAtMost_cons_iff.trans (forall₂_congr fun front _ => ?_)
  rw [List.count_cons_self, List.count_cons_of_ne (by decide)]
  omega

theorem not_closesAtMost_closing : ¬ ClosesAtMost 0 (')' :: t) := fun h =>
  absurd (closesAtMost_cons_iff.mp h [] List.nil_prefix) (by decide)

theorem closesAtMost_plain (opens : c ≠ '(') (closes : c ≠ ')') :
    ClosesAtMost depth (c :: t) ↔ ClosesAtMost depth t := by
  refine closesAtMost_cons_iff.trans (forall₂_congr fun front _ => ?_)
  rw [List.count_cons_of_ne opens, List.count_cons_of_ne closes]

theorem neverCloses_of_balanced (balanced : Balanced v) : NeverCloses v := fun front hf =>
  balanced.2 front ((List.mem_inits front v).mpr hf)

theorem balanced_of_blank (blank : ∀ c ∈ g, Text.isBlank c = true) : Balanced g := by
  have none : ∀ c, Text.isBlank c = false → ∀ front, front <+: g → front.count c = 0 := fun c visible front hf =>
    List.count_eq_zero_of_not_mem (mt (hf.subset ·) (Text.not_mem_of_blank blank visible))
  refine ⟨?_, fun front hf => ?_⟩
  · rw [none '(' (by decide) g List.prefix_rfl, none ')' (by decide) g List.prefix_rfl]
  · rw [none ')' (by decide) front ((List.mem_inits front g).mp hf)]
    exact Nat.zero_le _

theorem enclosed_cons (opens : c ≠ '(') (closes : c ≠ ')') :
    enclosed depth (c :: t) = c :: enclosed depth t := by
  cases depth <;> simp [enclosed, closes]

theorem isPrefix_enclosed (depth : Nat) (t : Text) : enclosed depth t <+: t := by
  fun_induction enclosed depth t with
  | case1 => exact List.nil_prefix
  | case2 depth rest ih => exact (List.prefix_cons_inj '(').mpr ih
  | case3 => exact List.nil_prefix
  | case4 depth rest ih => exact (List.prefix_cons_inj ')').mpr ih
  | case5 depth c rest _ _ _ ih => exact (List.prefix_cons_inj c).mpr ih

theorem closesAtMost_enclosed (depth : Nat) (t : Text) : ClosesAtMost depth (enclosed depth t) := by
  fun_induction enclosed depth t with
  | case1 | case3 => exact closesAtMost_nil _
  | case2 depth rest ih => exact closesAtMost_opening.mpr ih
  | case4 depth rest ih => exact closesAtMost_closing.mpr ih
  | case5 depth c rest opens outermost closes ih =>
      have other : c ≠ ')' := by
        rintro rfl
        cases depth with
        | zero => exact outermost rfl rfl
        | succ depth => exact closes depth rfl rfl
      exact (closesAtMost_plain opens other).mpr ih

/-- A text that never closes more than is open is kept, and what follows it is read at the depth that
it leaves. -/
theorem enclosed_append (h : ClosesAtMost depth v) (y : Text) :
    enclosed depth (v ++ y) = v ++ enclosed (depth + v.count '(' - v.count ')') y := by
  induction v generalizing depth with
  | nil => simp
  | cons c v ih =>
      by_cases opens : c = '('
      · subst opens
        rw [List.cons_append, enclosed, ih (closesAtMost_opening.mp h), List.count_cons_self,
          List.count_cons_of_ne (by decide), List.cons_append]
        congr 3
        omega
      · by_cases closes : c = ')'
        · subst closes
          cases depth with
          | zero => exact absurd h not_closesAtMost_closing
          | succ depth =>
              rw [List.cons_append, enclosed, ih (closesAtMost_closing.mp h), List.count_cons_self,
                List.count_cons_of_ne (by decide), List.cons_append]
              congr 3
              omega
        · rw [List.cons_append, enclosed_cons opens closes, ih ((closesAtMost_plain opens closes).mp h),
            List.count_cons_of_ne opens, List.count_cons_of_ne closes, List.cons_append]

theorem enclosed_of_balanced (h : Balanced v) : enclosed 0 (v ++ y) = v ++ enclosed 0 y := by
  rw [enclosed_append (closesAtMost_zero_iff.mpr (neverCloses_of_balanced h)), h.1, Nat.zero_add, Nat.sub_self]

theorem neverCloses_enclosed (v : Text) : NeverCloses (enclosed 0 v) :=
  closesAtMost_zero_iff.mp (closesAtMost_enclosed 0 v)

theorem NeverCloses.isPrefix_enclosed (never : NeverCloses p) (part : p <+: v) : p <+: enclosed 0 v := by
  obtain ⟨y, rfl⟩ := part
  rw [enclosed_append (closesAtMost_zero_iff.mpr never)]
  exact List.prefix_append _ _

theorem NeverCloses.enclosed_eq (never : NeverCloses v) : enclosed 0 v = v :=
  (Verilog.isPrefix_enclosed 0 v).eq_of_length_le (never.isPrefix_enclosed List.prefix_rfl).length_le

theorem isInfix_trimValue (t : Text) : trimValue t <:+: t :=
  (Text.trim_infix _).trans (isPrefix_enclosed 0 t).isInfix

theorem NeverCloses.trim (never : NeverCloses t) : NeverCloses (Text.trim t) := by
  intro front hf
  obtain ⟨g, blank, split⟩ := Text.exists_trimLeft t
  have inside : g ++ front <+: t := by
    rw [split]
    exact (List.prefix_append_right_inj g).mpr (hf.trans (Text.trim_prefix_trimLeft _))
  have none : ∀ c, Text.isBlank c = false → g.count c = 0 := fun c visible =>
    List.count_eq_zero_of_not_mem (Text.not_mem_of_blank blank visible)
  have kept := never _ inside
  rwa [List.count_append, List.count_append, none '(' (by decide), none ')' (by decide), Nat.zero_add,
    Nat.zero_add] at kept

theorem neverCloses_trimValue (t : Text) : NeverCloses (trimValue t) :=
  (neverCloses_enclosed t).trim

theorem NeverCloses.trimValue_eq (never : NeverCloses v) (trimmed : Text.trim v = v) : trimValue v = v := by
  rw [trimValue, never.enclosed_eq, trimmed]

theorem trimValue_closed (balanced : Balanced v) (y : Text) : trimValue (v ++ ')' :: y) = trimValue v := by
  rw [trimValue, enclosed_of_balanced balanced, enclosed, List.append_nil, trimValue,
    (neverCloses_of_balanced balanced).enclosed_eq]

/-- Behind a balanced value, blanks and whatever a closing parenthesis begins are cut off. -/
theorem trimValue_append (balanced : Balanced v) (trimmed : Text.trim v = v)
    (blank : ∀ c ∈ g, Text.isBlank c = true) (ends : y = [] ∨ ∃ u, y = ')' :: u) :
    trimValue (v ++ (g ++ y)) = v := by
  have ended : enclosed 0 y = [] := by
    rcases ends with rfl | ⟨u, rfl⟩
    · rfl
    · rfl
  rw [trimValue, enclosed_of_balanced balanced, enclosed_of_balanced (balanced_of_blank blank), ended,
    List.append_nil, Text.trim_append_blanks blank, trimmed]

/-- A value is cut to the longest part that never closes more parentheses than it opens, and trimmed. Cutting it again
changes nothing, and of a balanced value nothing is lost in front of a parenthesis that closes its list. -/
theorem trimValue_longestPart (v : Text) :
    (∃ p, trimValue v = Text.trim p ∧ p <+: v ∧ NeverCloses p ∧ ∀ q, q <+: v → NeverCloses q → q <+: p) ∧
      NeverCloses (trimValue v) ∧ trimValue (trimValue v) = trimValue v ∧
        (Balanced v → ∀ w, trimValue (v ++ ')' :: w) = trimValue v) := by
  have longest : ∀ q, q <+: v → NeverCloses q → q <+: enclosed 0 v := fun q part never => never.isPrefix_enclosed part
  exact ⟨⟨enclosed 0 v, rfl, isPrefix_enclosed 0 v, neverCloses_enclosed v, longest⟩, neverCloses_trimValue v,
    (neverCloses_trimValue v).trimValue_eq (Text.trim_trim _), trimValue_closed⟩

theorem trimValue_longestPart_product :
    Balanced " (2 * 4)" ∧ trimValue (" (2 * 4)" ++ ')' :: " (input a);") = "(2 * 4)".toList := by
  have balanced : Balanced " (2 * 4)" := by decide
  refine ⟨balanced, ?_⟩
  rw [(trimValue_longestPart " (2 * 4)").2.2.2 balanced]
  decide

end Pinout.Verilog
