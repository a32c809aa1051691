import Pinout.Diagram.Svg
import Pinout.Proofs.Text.Markup
import Pinout.Proofs.Text.Pairs

/-! # What a drawing tells

A drawing tells the palette, the title and the pins in their order, and nothing else. It is read back
from the front: an attribute ends at its closing quote, an element at its closing tag, and neither can
stand in a name or a title that is written as markup.
-/

namespace Pinout.Diagram

variable {s t value value' anchor anchor' size colour content content' : Text} {p q : Port}
  {ports ports' : List Port} {dark dark' : Bool}

theorem attr_append (name value s : Text) :
    attr name value ++ s = (" " : Text) ++ (name ++ (("=\"" : Text) ++ (value ++ '"' :: s))) := by
  simp [attr]

theorem attr_append_inj {name : Text} (quotes : '"' ∉ value) (quotes' : '"' ∉ value')
    (h : attr name value ++ s = attr name value' ++ t) : value = value' ∧ s = t := by
  rw [attr_append, attr_append] at h
  simp only [List.append_cancel_left_eq] at h
  exact Text.append_cons_inj quotes quotes' h

theorem notMem_ofInt {c : Char} (digit : c.isDigit = false) (sign : c ≠ '-') (n : Int) : c ∉ Text.ofInt n := by
  have digits : ∀ k : Nat, c ∉ Nat.toDigits 10 k := fun k h => by
    rw [Nat.isDigit_of_mem_toDigits (by decide) (by decide) h] at digit
    cases digit
  cases n with
  | ofNat k => exact digits k
  | negSucc k => exact List.not_mem_cons_of_ne_of_not_mem sign (digits (k + 1))

theorem quote_notMem_ofInt (n : Int) : '"' ∉ Text.ofInt n :=
  notMem_ofInt (by decide) (by decide) n

theorem content_append_inj
    (h : Text.markup content ++ '<' :: s = Text.markup content' ++ '<' :: t) :
    content = content' ∧ s = t := by
  have absent : ∀ u, '<' ∉ Text.markup u := fun u => Text.not_mem_markup (by decide)
  obtain ⟨same, rest⟩ := Text.append_cons_inj (absent content) (absent content') h
  exact ⟨Text.markup_inj same, rest⟩

theorem textElement_append_inj {x y x' y' : Int} (quotes : '"' ∉ anchor) (quotes' : '"' ∉ anchor')
    (h : textElement x y anchor size colour content ++ s =
      textElement x' y' anchor' size colour content' ++ t) :
    anchor = anchor' ∧ content = content' ∧ s = t := by
  unfold textElement at h
  simp only [List.append_assoc] at h
  have inside := List.append_cancel_left h
  obtain ⟨-, behindX⟩ := attr_append_inj (quote_notMem_ofInt x) (quote_notMem_ofInt x') inside
  obtain ⟨-, behindY⟩ := attr_append_inj (quote_notMem_ofInt y) (quote_notMem_ofInt y') behindX
  obtain ⟨same, fonts⟩ := attr_append_inj quotes quotes' behindY
  have marked := List.append_cancel_left (List.append_cancel_left
    (List.append_cancel_left (List.append_cancel_left fonts)))
  obtain ⟨contents, rest⟩ := content_append_inj marked
  exact ⟨same, contents, List.append_cancel_left rest⟩

theorem Anchor.name_inj {a b : Anchor} (h : a.name = b.name) : a = b := by
  cases a <;> cases b <;> first | rfl | exact absurd h (by decide)

theorem Anchor.quote_notMem_name (a : Anchor) : '"' ∉ a.name := by
  cases a <;> decide

theorem Label.element_append_inj {l m : Label} (h : l.element colour ++ s = m.element colour ++ t) :
    l.anchor = m.anchor ∧ l.text = m.text ∧ s = t := by
  obtain ⟨anchors, rest⟩ := textElement_append_inj l.anchor.quote_notMem_name m.anchor.quote_notMem_name h
  exact ⟨Anchor.name_inj anchors, rest⟩

/-- An arrow tells which way a signal goes, once it is known to stand at the right edge. -/
theorem arrow_inj {d e : Direction} (hd : d ≠ .input) (he : e ≠ .input) (h : arrow d = arrow e) :
    d = e := by
  cases d <;> cases e <;> first | rfl | contradiction

theorem labelAt_congr (row : Int) (h : p.pin = q.pin) : labelAt row p = labelAt row q := by
  obtain ⟨name, direction⟩ := Prod.mk.inj h
  simp [labelAt, Port.isInput, name, direction]

theorem length_arrow (d : Direction) : (arrow d).length = 1 := by
  cases d <;> rfl

theorem pin_eq_of_label {row : Int} (edge : (labelAt row p).anchor = (labelAt row q).anchor)
    (text : (labelAt row p).text = (labelAt row q).text) : p.pin = q.pin := by
  by_cases hp : p.direction = .input <;> by_cases hq : q.direction = .input
  · simp only [labelAt, Port.isInput, hp, hq, decide_true, if_true] at text
    exact Prod.ext (List.append_cancel_left text) (hp.trans hq.symm)
  · simp [labelAt, Port.isInput, hp, hq] at edge
  · simp [labelAt, Port.isInput, hp, hq] at edge
  · simp only [labelAt, Port.isInput, hp, hq, decide_false, Bool.false_eq_true, if_false] at text
    obtain ⟨front, arrows⟩ := List.append_inj' text (by rw [length_arrow, length_arrow])
    exact Prod.ext (List.append_cancel_right front) (arrow_inj hp hq arrows)

theorem labelsFrom_congr (row : Int) (h : ports.map Port.pin = ports'.map Port.pin) :
    labelsFrom row ports = labelsFrom row ports' := by
  induction ports generalizing row ports' with
  | nil =>
      obtain rfl := List.map_eq_nil_iff.mp h.symm
      rfl
  | cons p rest ih =>
      cases ports' with
      | nil => cases h
      | cons q rest' =>
          obtain ⟨first, others⟩ := List.cons.inj h
          rw [labelsFrom, labelsFrom, labelAt_congr row first, ih (row + 1) others]

/-- The lines of the labels of ports from a row on, with the closing tag behind them. -/
def labelLines (colour : Text) (row : Int) (ports : List Port) : Text :=
  ((labelsFrom row ports).map (Label.element colour)).flatMap (· ++ ['\n']) ++ ("</svg>\n" : Text)

theorem labelLines_cons (colour : Text) (row : Int) (p : Port) (rest : List Port) :
    labelLines colour row (p :: rest) =
      (labelAt row p).element colour ++ '\n' :: labelLines colour (row + 1) rest := by
  simp [labelLines, labelsFrom]

theorem element_append_ne_labelLines_nil (l : Label) (row : Int) (s : Text) :
    l.element colour ++ s ≠ labelLines colour row [] := by
  intro h
  have first := congrArg List.head? h
  unfold Label.element textElement at first
  simp only [List.append_assoc] at first
  rw [List.head?_append] at first
  exact absurd first (by simp [labelLines, labelsFrom])

/-- The lines of the labels tell the pins. By induction on the ports: each line ends the text of its
label, so the lines behind it are told as well. -/
theorem labelLines_inj {row : Int} (h : labelLines colour row ports = labelLines colour row ports') :
    ports.map Port.pin = ports'.map Port.pin := by
  induction ports generalizing row ports' with
  | nil =>
      cases ports' with
      | nil => rfl
      | cons q rest' =>
          rw [labelLines_cons] at h
          exact absurd h.symm (element_append_ne_labelLines_nil _ row _)
  | cons p rest ih =>
      rw [labelLines_cons] at h
      cases ports' with
      | nil => exact absurd h (element_append_ne_labelLines_nil _ row _)
      | cons q rest' =>
          rw [labelLines_cons] at h
          obtain ⟨edge, text, behind⟩ := Label.element_append_inj h
          rw [List.map_cons, List.map_cons, pin_eq_of_label edge text, ih (List.cons.inj behind).2]

theorem svg_eq (dark : Bool) (title : Text) (ports : List Port) :
    svg dark title ports = canvasElement (height ports.length) ++
      '\n' :: (boxElement (.ofDark dark) (height ports.length) ++
        '\n' :: (titleElement (.ofDark dark) title ++
          '\n' :: labelLines (Palette.ofDark dark).text 0 ports)) := by
  simp [svg, Text.document, labelLines]

theorem canvasElement_append_inj {m n : Int} (h : canvasElement m ++ s = canvasElement n ++ t) :
    s = t := by
  unfold canvasElement at h
  simp only [List.append_assoc] at h
  have behindWidth := List.append_cancel_left (List.append_cancel_left h)
  obtain ⟨-, behindHeight⟩ :=
    attr_append_inj (quote_notMem_ofInt m) (quote_notMem_ofInt n) behindWidth
  exact List.append_cancel_left (List.append_cancel_left behindHeight)

theorem Palette.fill_inj (h : (ofDark dark).fill = (ofDark dark').fill) : dark = dark' := by
  cases dark <;> cases dark' <;> first | rfl | exact absurd h (by decide)

theorem boxElement_append_inj {m n : Int}
    (h : boxElement (.ofDark dark) m ++ s = boxElement (.ofDark dark') n ++ t) :
    dark = dark' ∧ s = t := by
  have fills : ∀ d, '"' ∉ (Palette.ofDark d).fill := by decide
  unfold boxElement at h
  simp only [List.append_assoc] at h
  have sides := List.append_cancel_left (List.append_cancel_left
    (List.append_cancel_left (List.append_cancel_left h)))
  obtain ⟨-, behindHeight⟩ := attr_append_inj (quote_notMem_ofInt _) (quote_notMem_ofInt _) sides
  obtain ⟨same, behindFill⟩ := attr_append_inj (fills dark) (fills dark') behindHeight
  obtain rfl := Palette.fill_inj same
  exact ⟨rfl, List.append_cancel_left (List.append_cancel_left behindFill)⟩

theorem titleElement_append_inj {palette : Palette} {title title' : Text}
    (h : titleElement palette title ++ s = titleElement palette title' ++ t) :
    title = title' ∧ s = t :=
  (textElement_append_inj (by decide) (by decide) h).2

/-- A drawing tells whether it is dark, its title and its pins in their order, and it depends on nothing
else of the ports. -/
theorem svg_eq_iff (dark dark' : Bool) (title title' : Text) (ports ports' : List Port) :
    svg dark title ports = svg dark' title' ports' ↔
      dark = dark' ∧ title = title' ∧ ports.map Port.pin = ports'.map Port.pin := by
  constructor
  · intro h
    rw [svg_eq, svg_eq] at h
    have box := (List.cons.inj (canvasElement_append_inj h)).2
    obtain ⟨rfl, behindBox⟩ := boxElement_append_inj box
    obtain ⟨rfl, behindTitle⟩ := titleElement_append_inj (List.cons.inj behindBox).2
    exact ⟨rfl, rfl, labelLines_inj (List.cons.inj behindTitle).2⟩
  · rintro ⟨rfl, rfl, pins⟩
    have count : ports.length = ports'.length := by simpa using congrArg List.length pins
    rw [svg, svg, count, labelsFrom_congr 0 pins]

end Pinout.Diagram
