import Mathlib.Algebra.BigOperators.Group.List.Basic
import Mathlib.Algebra.Ring.Int.Defs
import Pinout.Interface.Basic
import Pinout.Proofs.Pattern.Found
import Pinout.Text.Lines

/-! # Open parentheses

How many more parentheses a text opens than it closes. The parts of a text add up, and so do the lines
of a document: separators, margins and line breaks hold no parentheses.
-/

namespace Pinout

namespace Text

variable {s t margin mark : Text} {parts lines heading rows : List Text}

/-- How many more parentheses a text opens than it closes. -/
def surplus (t : Text) : Int :=
  t.count '(' - t.count ')'

/-- How many more parentheses some texts open than they close. -/
def totalSurplus (parts : List Text) : Int :=
  (parts.map surplus).sum

theorem count_eq_iff_surplus : t.count '(' = t.count ')' ↔ surplus t = 0 := by
  rw [surplus]
  omega

@[simp] theorem surplus_nil : surplus [] = 0 := rfl

@[simp] theorem surplus_append : surplus (s ++ t) = surplus s + surplus t := by
  simp only [surplus, List.count_append]
  omega

theorem surplus_cons (c : Char) (t : Text) : surplus (c :: t) = surplus [c] + surplus t :=
  surplus_append (s := [c])

theorem surplus_of_plain (h : ∀ c ∈ t, c ≠ '(' ∧ c ≠ ')') : surplus t = 0 := by
  have opening : '(' ∉ t := fun hc => (h _ hc).1 rfl
  have closing : ')' ∉ t := fun hc => (h _ hc).2 rfl
  simp [surplus, List.count_eq_zero_of_not_mem, opening, closing]

theorem IsName.surplus (h : t.IsName) : Text.surplus t = 0 := by
  refine surplus_of_plain fun c hc => ⟨?_, ?_⟩
  · exact ne_of_isWord (h.word c hc) (by decide)
  · exact ne_of_isWord (h.word c hc) (by decide)

@[simp] theorem totalSurplus_nil : totalSurplus [] = 0 := rfl

@[simp] theorem totalSurplus_cons : totalSurplus (t :: parts) = surplus t + totalSurplus parts := by
  simp [totalSurplus]

@[simp] theorem totalSurplus_append : totalSurplus (parts ++ lines) = totalSurplus parts + totalSurplus lines := by
  simp [totalSurplus]

theorem totalSurplus_eq_zero (h : ∀ t ∈ parts, surplus t = 0) : totalSurplus parts = 0 :=
  List.sum_eq_zero (List.forall_mem_map.mpr h)

theorem totalSurplus_map {α : Type} {items : List α} {write : α → Text} {amount : α → Int}
    (h : ∀ item ∈ items, surplus (write item) = amount item) :
    totalSurplus (items.map write) = (items.map amount).sum := by
  rw [totalSurplus, List.map_map]
  exact congrArg List.sum (List.map_congr_left h)

theorem totalSurplus_filterMap {α : Type} (items : List α) (write : α → Option Text) :
    totalSurplus (items.filterMap write) = (items.map fun item => surplus ((write item).getD [])).sum := by
  induction items with
  | nil => rfl
  | cons item items ih =>
      rw [List.filterMap_cons, List.map_cons, List.sum_cons, ← ih]
      cases write item with
      | none => exact (Int.zero_add _).symm
      | some t => exact totalSurplus_cons

theorem totalSurplus_punctuate (plain : surplus mark = 0) (parts : List Text) :
    totalSurplus (punctuate mark parts) = totalSurplus parts := by
  fun_induction punctuate mark parts with
  | case1 | case2 => rfl
  | case3 part rest more ih =>
      rw [totalSurplus_cons, ih, surplus_append, plain, Int.add_zero, totalSurplus_cons]

/-- A list of pairs leaves open what their second parts do, if the first parts are balanced. -/
theorem totalSurplus_pairs {α : Type} {items : List α} {write : Text → Text → Text} {formal actual : α → Text}
    (adds : ∀ s t, surplus (write s t) = surplus s + surplus t) (formals : ∀ item ∈ items, surplus (formal item) = 0) :
    totalSurplus (punctuate "," (items.map fun item => write (formal item) (actual item))) =
      (items.map fun item => surplus (actual item)).sum := by
  rw [totalSurplus_punctuate rfl]
  refine totalSurplus_map fun item hitem => ?_
  rw [adds, formals item hitem, Int.zero_add]

theorem totalSurplus_section? (plain : totalSurplus heading = 0) :
    totalSurplus (section? heading rows) = totalSurplus rows := by
  cases rows with
  | nil => rfl
  | cons row rows => simp [section?, plain]

theorem surplus_joinLines (lines : List Text) : surplus (joinLines lines) = totalSurplus lines := by
  have lineFeed : surplus ['\n'] = 0 := rfl
  rw [joinLines, joinWith]
  induction lines with
  | nil => rfl
  | cons line lines ih =>
      cases lines with
      | nil => simp
      | cons next lines =>
          rw [List.intercalate_cons_cons, surplus_append, surplus_append, ih, lineFeed, Int.add_zero,
            totalSurplus_cons (t := line)]

theorem surplus_document (sections : List (List Text)) :
    surplus (document sections) = (sections.map totalSurplus).sum := by
  have lineFeed : surplus ['\n'] = 0 := rfl
  have flat : ∀ lines : List Text, surplus (lines.flatMap (· ++ ['\n'])) = totalSurplus lines := by
    intro lines
    induction lines with
    | nil => rfl
    | cons line lines ih =>
        rw [List.flatMap_cons, surplus_append, surplus_append, ih, lineFeed, Int.add_zero, totalSurplus_cons]
  rw [document, flat]
  induction sections with
  | nil => rfl
  | cons lines sections ih => rw [List.flatten_cons, totalSurplus_append, ih, List.map_cons, List.sum_cons]

theorem totalSurplus_lines (t : Text) : totalSurplus (Text.lines t) = surplus t := by
  have break_plain : ∀ c, isLineBreak c = true → surplus [c] = 0 := by
    intro c h
    apply surplus_of_plain
    rintro d (_ | ⟨_, ⟨⟩⟩)
    constructor
    · rintro rfl
      exact absurd h (by decide)
    · rintro rfl
      exact absurd h (by decide)
  fun_induction Text.lines t with
  | case1 => rfl
  | case2 rest ih =>
      rw [totalSurplus_cons, ih, surplus_cons '\r', surplus_cons '\n', break_plain '\r' (by decide),
        break_plain '\n' (by decide), surplus_nil, Int.zero_add, Int.zero_add]
  | case3 c rest _ isBreak ih => rw [totalSurplus_cons, ih, surplus_cons c, break_plain c isBreak, surplus_nil]
  | case4 c rest _ _ last ih =>
      rw [last] at ih
      rw [surplus_cons c rest, ← ih]
      simp
  | case5 c rest _ _ line more first ih =>
      rw [first] at ih
      rw [surplus_cons c rest, ← ih, totalSurplus_cons, totalSurplus_cons, surplus_cons c line]
      omega

theorem surplus_indentRest (plain : surplus margin = 0) (t : Text) :
    surplus (indentRest margin t) = surplus t := by
  have indented : ∀ lines : List Text, totalSurplus (lines.map (indentLine margin)) = totalSurplus lines := by
    intro lines
    induction lines with
    | nil => rfl
    | cons line lines ih =>
        have same : surplus (indentLine margin line) = surplus line := by
          rw [indentLine]
          split
          · rename_i empty
            rw [List.isEmpty_iff.mp empty]
          · rw [surplus_append, plain, Int.zero_add]
        rw [List.map_cons, totalSurplus_cons, same, ih, totalSurplus_cons]
  have ended : totalSurplus (Text.lines (t ++ ['\n'])) = surplus t := by
    rw [totalSurplus_lines, surplus_append]
    exact Int.add_zero _
  rw [indentRest]
  split
  · rename_i none
    rw [none] at ended
    exact ended
  · rename_i line more first
    rw [surplus_joinLines, totalSurplus_cons, indented, ← totalSurplus_cons, ← first, ended]

end Text

open Text

/-- How many more parentheses the defaults of a unit open than they close. -/
def Interface.defaultSurplus (unit : Interface) : Int :=
  (unit.generics.map fun g => surplus (textOrEmpty g.default)).sum

/-- How many more parentheses the ranges of the ports of a unit open than they close. -/
def Interface.rangeSurplus (unit : Interface) : Int :=
  (unit.ports.map fun p => surplus (textOrEmpty p.width)).sum

end Pinout
