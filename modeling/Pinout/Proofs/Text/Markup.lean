import Mathlib.Data.List.Basic
import Pinout.Text.Quoted

/-! # Markup that can be read back

No text in markup holds an angle bracket or a quote, and different texts stand differently in markup. So
the markup of a text ends in front of the next tag, whatever the text is.
-/

namespace Pinout.Text

variable {c d : Char} {s t : Text}

def isDelimiter (c : Char) : Bool :=
  c == '<' || c == '>' || c == '"' || c == '\''

theorem any_isDelimiter_markupChar (c : Char) : (markupChar c).any isDelimiter = false := by
  fun_cases markupChar c with
  | case6 _ amp lt gt quot apos => simpa [isDelimiter] using ⟨⟨⟨lt, gt⟩, quot⟩, apos⟩
  | _ => decide

theorem not_isDelimiter_of_mem_markup (h : d ∈ markup t) : isDelimiter d = false := by
  obtain ⟨c, -, hd⟩ := List.mem_flatMap.mp h
  exact Bool.eq_false_iff.mpr (List.any_eq_false.mp (any_isDelimiter_markupChar c) d hd)

theorem not_mem_markup (delimiter : isDelimiter d = true) : d ∉ markup t := by
  intro h
  rw [not_isDelimiter_of_mem_markup h] at delimiter
  cases delimiter

theorem markupChar_ne_nil : markupChar c ≠ [] := by
  fun_cases markupChar c <;> simp

/-- The first character tells whether a reference follows, and a reference tells its character. -/
theorem markupChar_append_inj (h : markupChar c ++ s = markupChar d ++ t) : c = d ∧ s = t := by
  fun_cases markupChar c <;> fun_cases markupChar d <;> simp [markupChar, *] at h ⊢ <;> grind

theorem markup_inj (h : markup s = markup t) : s = t := by
  induction s generalizing t with
  | nil =>
      cases t with
      | nil => rfl
      | cons d t => exact absurd (List.append_eq_nil_iff.mp h.symm).1 markupChar_ne_nil
  | cons c s ih =>
      cases t with
      | nil => exact absurd (List.append_eq_nil_iff.mp h).1 markupChar_ne_nil
      | cons d t =>
          obtain ⟨rfl, rest⟩ := markupChar_append_inj h
          rw [ih rest]

end Pinout.Text
