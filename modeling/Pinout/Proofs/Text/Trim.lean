import Pinout.Proofs.Text.Characters
import Pinout.Text.LowerCase

/-! # Trimming and lower case

Blanks around a text do not change what trimming leaves, and a text without blanks at its ends is left
as it is. On ASCII texts, lower case is taken letter by letter.
-/

namespace Pinout.Text

variable {s t g h : Text}

theorem trimLeft_append (blank : ∀ c ∈ g, isBlank c = true) : trimLeft (g ++ t) = trimLeft t := by
  rw [trimLeft, trimLeft, List.dropWhile_append_of_pos blank]

theorem trimRight_append (blank : ∀ c ∈ g, isBlank c = true) : trimRight (t ++ g) = trimRight t := by
  have reversed : ∀ c ∈ g.reverse, isBlank c = true := fun c hc => blank c (List.mem_reverse.mp hc)
  rw [trimRight, trimRight, dropRightWhile, dropRightWhile, List.reverse_append,
    List.dropWhile_append_of_pos reversed]

theorem trimLeft_eq_nil_of_blank (blank : ∀ c ∈ g, isBlank c = true) : trimLeft g = [] := by
  have := trimLeft_append (t := []) blank
  rwa [List.append_nil] at this

theorem exists_trimLeft (t : Text) : ∃ g, (∀ c ∈ g, isBlank c = true) ∧ t = g ++ trimLeft t := by
  refine ⟨t.takeWhile isBlank, fun c hc => ?_, List.takeWhile_append_dropWhile.symm⟩
  exact List.all_eq_true.mp List.all_takeWhile c hc

theorem exists_trim (t : Text) :
    ∃ g h, (∀ c ∈ g, isBlank c = true) ∧ (∀ c ∈ h, isBlank c = true) ∧ t = g ++ (trim t ++ h) := by
  obtain ⟨g, blank, left⟩ := exists_trimLeft t
  obtain ⟨h, blank', right⟩ := exists_trimLeft (trimLeft t).reverse
  refine ⟨g, h.reverse, blank, fun c hc => blank' c (List.mem_reverse.mp hc), ?_⟩
  have split : trimLeft t = trim t ++ h.reverse := by
    rw [trim, trimRight, dropRightWhile, ← List.reverse_append]
    exact List.reverse_eq_iff.mp right
  rwa [← split]

theorem trim_blanks_append (blank : ∀ c ∈ g, isBlank c = true) : trim (g ++ t) = trim t := by
  rw [trim, trimLeft_append blank, trim]

theorem trim_append_blanks (blank : ∀ c ∈ g, isBlank c = true) : trim (t ++ g) = trim t := by
  obtain ⟨front, blankFront, split⟩ := exists_trimLeft t
  rw [trim, trim]
  cases rest : trimLeft t with
  | nil =>
      rw [rest, List.append_nil] at split
      rw [split, trimLeft_append blankFront, trimLeft_eq_nil_of_blank blank]
  | cons c u =>
      have kept : isBlank c = false := by
        have := List.head?_dropWhile_not isBlank t
        rw [trimLeft] at rest
        rw [rest] at this
        simpa using this
      rw [rest] at split
      have longer : trimLeft (t ++ g) = (c :: u) ++ g := by
        rw [split, List.append_assoc, trimLeft_append blankFront, trimLeft, List.cons_append,
          List.dropWhile_cons_of_neg (by simp [kept])]
      rw [longer, trimRight_append blank]

theorem trimLeft_eq_self (first : ∀ c ∈ t.head?, isBlank c = false) : trimLeft t = t := by
  cases t with
  | nil => rfl
  | cons c t => exact List.dropWhile_cons_of_neg (by simp [first c (by simp)])

theorem trim_eq_self (first : ∀ c ∈ t.head?, isBlank c = false)
    (last : ∀ c ∈ t.getLast?, isBlank c = false) : trim t = t := by
  rw [trim, trimLeft_eq_self first, trimRight, dropRightWhile]
  cases reversed : t.reverse with
  | nil => rw [List.dropWhile_nil, List.reverse_nil, List.reverse_eq_nil_iff.mp reversed]
  | cons c u =>
      have : isBlank c = false := last c (by rw [← List.head?_reverse, reversed]; rfl)
      rw [List.dropWhile_cons_of_neg (by simp [this]), ← reversed, List.reverse_reverse]

theorem trim_of_no_blank (h : ∀ c ∈ t, isBlank c = false) : trim t = t :=
  trim_eq_self (fun c hc => h c (List.mem_of_mem_head? hc))
    (fun c hc => h c (List.mem_of_mem_getLast? hc))

theorem trim_of_word (h : ∀ c ∈ t, isWord c = true) : trim t = t :=
  trim_of_no_blank fun c hc => not_isBlank_of_isWord (h c hc)

private theorem head_of_dropWhile_eq_self {drops : Char → Bool} (h : t.dropWhile drops = t) :
    ∀ c ∈ t.head?, drops c = false := by
  intro c hc
  have := List.head?_dropWhile_not drops t
  rw [h, Option.mem_def.mp hc] at this
  simpa using this

theorem length_trim_le (t : Text) : (trim t).length ≤ t.length := by
  have dropped := (List.dropWhile_suffix isBlank (l := (trimLeft t).reverse)).length_le
  rw [List.length_reverse, ← List.length_reverse] at dropped
  exact Nat.le_trans dropped (List.dropWhile_suffix isBlank).length_le

theorem ends_of_trim_eq_self (trimmed : trim t = t) :
    (∀ c ∈ t.head?, isBlank c = false) ∧ ∀ c ∈ t.getLast?, isBlank c = false := by
  have left : trimLeft t = t := by
    apply List.IsSuffix.eq_of_length (List.dropWhile_suffix isBlank)
    have shorter : (trimLeft t).length ≤ t.length := (List.dropWhile_suffix isBlank).length_le
    have longer : (trim t).length ≤ (trimLeft t).length := by
      have dropped := (List.dropWhile_suffix isBlank (l := (trimLeft t).reverse)).length_le
      rwa [List.length_reverse, ← List.length_reverse] at dropped
    rw [trimmed] at longer
    exact Nat.le_antisymm shorter longer
  refine ⟨head_of_dropWhile_eq_self left, fun c hc => ?_⟩
  rw [trim, left, trimRight, dropRightWhile, List.reverse_eq_iff] at trimmed
  exact head_of_dropWhile_eq_self trimmed c (by rwa [List.head?_reverse])

theorem trim_prefix_trimLeft (t : Text) : trim t <+: trimLeft t := by
  rw [trim, trimRight, dropRightWhile, ← List.reverse_suffix, List.reverse_reverse]
  exact List.dropWhile_suffix isBlank

theorem trim_infix (t : Text) : trim t <:+: t :=
  (trim_prefix_trimLeft t).isInfix.trans (List.dropWhile_suffix isBlank).isInfix

@[simp] theorem trim_trim (t : Text) : trim (trim t) = trim t := by
  refine trim_eq_self (fun c hc => ?_) fun c hc => ?_
  · have first : c ∈ (trimLeft t).head? := by
      obtain ⟨s, split⟩ := trim_prefix_trimLeft t
      rw [← split, List.head?_append, Option.mem_def.mp hc, Option.some_or]
      rfl
    have kept := List.head?_dropWhile_not isBlank t
    rw [trimLeft, Option.mem_def] at first
    rw [first] at kept
    simpa using kept
  · rw [trim, trimRight, dropRightWhile, List.getLast?_reverse] at hc
    have kept := List.head?_dropWhile_not isBlank (trimLeft t).reverse
    rw [Option.mem_def.mp hc] at kept
    simpa using kept

theorem toLower_of_ascii (h : ∀ c ∈ t, c.toNat < 128) : toLower t = t.map Char.toLower := by
  have after : ∀ before, lowerAfter before t = t.map Char.toLower := by
    induction t with
    | nil =>
        intro before
        rfl
    | cons c t ih =>
        intro before
        have ascii := h c (by simp)
        have sigma : c ≠ 'Σ' := by
          rintro rfl
          exact absurd ascii (by decide)
        have dotted : c ≠ 'İ' := by
          rintro rfl
          exact absurd ascii (by decide)
        rw [lowerAfter, if_neg sigma, if_neg dotted, ih (fun d hd => h d (by simp [hd])), smallLetter,
          if_pos ascii]
        rfl
  exact after []

end Pinout.Text
