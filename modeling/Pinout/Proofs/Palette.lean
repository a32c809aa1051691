import Pinout.Proofs.Drawing
import Pinout.Proofs.Pattern.Passage

/-! # The colours of a drawing

The dark drawing is the light one with other colours. To replace the colours in the text is enough: no name and no
title spells an attribute, as there are no quotes in markup, and no attribute spells another one, as there is no
equals sign in a value.
-/

namespace Pinout.Diagram

/-- Characters that stand around attributes and in tags. -/
def marks : Text := "\"= \n<>"

/-- A value of an attribute that spells no part of an attribute or a tag. -/
def IsPlain (value : Text) : Prop :=
  ∀ c ∈ value, c ∉ marks

instance (value : Text) : Decidable (IsPlain value) :=
  inferInstanceAs (Decidable (∀ c ∈ value, c ∉ marks))

/-- The attributes that give an element its colours. -/
inductive Paint where
  | fill
  | stroke
  deriving DecidableEq, Repr

def Paint.name : Paint → Text
  | fill => "fill"
  | stroke => "stroke"

/-- A colour that takes the place of another one. -/
structure Repainting where
  paint : Paint
  /-- The colour that is replaced. -/
  old : Text
  new : Text
  oldPlain : IsPlain old
  newPlain : IsPlain new

/-- An attribute as it is spelled, without the space in front of it. -/
def spelled (name value : Text) : Text :=
  name ++ '=' :: '"' :: (value ++ ['"'])

namespace Repainting

def found (r : Repainting) : Text :=
  spelled r.paint.name r.old

/-- Replaces the colour in a text wherever the attribute is spelled with it. -/
def apply (r : Repainting) (t : Text) : Text :=
  (Pattern.exactly r.found).replaceAll (fun _ => spelled r.paint.name r.new) t

/-- What becomes of the value of an attribute. -/
def repaint (r : Repainting) (name value : Text) : Text :=
  if name = r.paint.name ∧ value = r.old then r.new else value

def palette (r : Repainting) (p : Palette) : Palette where
  stroke := r.repaint "stroke" p.stroke
  fill := r.repaint "fill" p.fill
  text := r.repaint "fill" p.text

/-- The text `x` becomes `y`, wherever it stands. -/
def Turns (r : Repainting) (x y : Text) : Prop :=
  (Pattern.exactly r.found).Rewrites (fun _ => spelled r.paint.name r.new) x y

end Repainting

variable {x y u v k s name value title : Text} {c : Char} {ports : List Port} {r : Repainting} {p : Palette}

theorem IsPlain.not_mem (plain : IsPlain value) (mark : c ∈ marks) : c ∉ value := fun hc => plain c hc mark

theorem isPlain_ofInt (n : Int) : IsPlain (Text.ofInt n) := by
  have other : ∀ c ∈ marks, c.isDigit = false ∧ c ≠ '-' := by decide
  exact fun c hc mark => notMem_ofInt (other c mark).1 (other c mark).2 n hc

theorem Paint.isPlain_name (q : Paint) : IsPlain q.name := by
  cases q <;> decide

theorem Paint.name_ne_nil (q : Paint) : q.name ≠ [] := by
  cases q <;> decide

theorem attr_eq (name value : Text) : attr name value = [' '] ++ spelled name value := by
  simp [attr, spelled]

namespace Repainting

theorem Turns.append {x' y' : Text} (first : r.Turns x y) (second : r.Turns x' y') : r.Turns (x ++ x') (y ++ y') :=
  Pattern.Rewrites.append first second

theorem found_append (r : Repainting) (s : Text) :
    r.found ++ s = r.paint.name ++ '=' :: '"' :: (r.old ++ '"' :: s) := by
  simp [found, spelled]

theorem refuses_mark (mark : c ∈ marks) (before : Option Char) (s : Text) :
    (Pattern.exactly r.found).Refuses before (c :: s) := by
  refine Pattern.refuses_exactly fun ⟨t, same⟩ => ?_
  rw [found_append] at same
  obtain ⟨d, w, name⟩ := List.exists_cons_of_ne_nil r.paint.name_ne_nil
  rw [name] at same
  obtain ⟨rfl, -⟩ := List.cons.inj same
  exact r.paint.isPlain_name.not_mem mark (name ▸ List.mem_cons_self)

theorem not_mem_found (mark : c ∈ marks) (other : c ≠ '=' ∧ c ≠ '"') : c ∉ r.found := by
  have name := r.paint.isPlain_name.not_mem mark
  have colour := r.oldPlain.not_mem mark
  simp [found, spelled, name, colour, other]

theorem quote_mem_found (r : Repainting) : '"' ∈ r.found := by
  simp [found, spelled]

theorem turns_unquoted (unquoted : '"' ∉ x) (mark : c ∈ marks) (other : c ≠ '=' ∧ c ≠ '"') :
    r.Turns (x ++ [c]) (x ++ [c]) := by
  have quote : ∀ before t, ∀ a ∈ (Pattern.exactly r.found).readings before t, '"' ∈ a.text := fun before t a ha => by
    rw [Pattern.mem_exactly ha]
    exact r.quote_mem_found
  have passes : (Pattern.exactly r.found).Passes (x ++ [c]) := fun before s => by
    have never := Pattern.mayRead_exactly (not_mem_found (r := r) mark other)
    have quiet : (Pattern.exactly r.found).Quiet before x ([] ++ c :: s) :=
      Pattern.quiet_of_missing quote never (by rwa [List.append_nil])
    exact Pattern.Quiet.append (y := [c]) quiet ⟨refuses_mark mark _ s, trivial⟩
  exact passes.rewrites

/-- From within the name of an attribute only the attribute itself is found, with its value. -/
theorem quiet_name (whole : r.paint.name <:+ name → name = r.paint.name) (namePlain : IsPlain name)
    (valuePlain : IsPlain value) (differs : ¬ (name = r.paint.name ∧ value = r.old)) (before : Option Char) (s : Text) :
    (Pattern.exactly r.found).Quiet before name ('=' :: '"' :: (value ++ '"' :: s)) := by
  refine Pattern.quiet_of_forall fun u e v split => Pattern.refuses_exactly fun ⟨w, same⟩ => ?_
  rw [found_append, ← List.cons_append] at same
  have unequal : '=' ∉ e :: v := fun equals => namePlain.not_mem (by decide) (split ▸ List.mem_append_right u equals)
  obtain ⟨word, rest⟩ := Text.append_cons_inj (r.paint.isPlain_name.not_mem (by decide)) unequal same
  obtain ⟨colour, -⟩ := Text.append_cons_inj (r.oldPlain.not_mem (by decide)) (valuePlain.not_mem (by decide))
    (List.cons.inj rest).2
  exact differs ⟨whole (split ▸ word ▸ List.suffix_append u _), colour.symm⟩

/-- From within a value nothing is found, as what is found has an equals sign in front of its first quote. -/
theorem quiet_value (plain : IsPlain value) (before : Option Char) (s : Text) :
    (Pattern.exactly r.found).Quiet before value ('"' :: s) := by
  refine Pattern.quiet_of_forall fun u e v split => Pattern.refuses_exactly fun ⟨w, same⟩ => ?_
  have cut : (r.paint.name ++ ['=']) ++ '"' :: (r.old ++ '"' :: w) = e :: v ++ '"' :: s := by
    rw [List.append_assoc]
    exact (found_append r w).symm.trans same
  have unquoted : '"' ∉ e :: v := fun quote => plain.not_mem (by decide) (split ▸ List.mem_append_right u quote)
  have unquoted' : '"' ∉ r.paint.name ++ ['='] := by simpa using r.paint.isPlain_name.not_mem (by decide)
  obtain ⟨word, -⟩ := Text.append_cons_inj unquoted' unquoted cut
  refine plain.not_mem (c := '=') (by decide) (split ▸ List.mem_append_right u ?_)
  rw [← word]
  exact List.mem_append_right _ List.mem_cons_self

theorem passes_spelled (whole : r.paint.name <:+ name → name = r.paint.name) (namePlain : IsPlain name)
    (valuePlain : IsPlain value) (differs : ¬ (name = r.paint.name ∧ value = r.old)) :
    (Pattern.exactly r.found).Passes (spelled name value) := fun before s => by
  -- A place in the attribute is in its name, in its value or at a mark.
  have behind : ∀ before, (Pattern.exactly r.found).Quiet before (value ++ ['"']) s := fun before =>
    (quiet_value valuePlain before s).append ⟨refuses_mark (by decide) _ s, trivial⟩
  refine Pattern.Quiet.append ?_ ⟨refuses_mark (by decide) _ _, refuses_mark (by decide) _ _, behind _⟩
  simpa using quiet_name whole namePlain valuePlain differs before s

theorem turns_spelled (whole : r.paint.name <:+ name → name = r.paint.name) (namePlain : IsPlain name)
    (valuePlain : IsPlain value) : r.Turns (spelled name value) (spelled name (r.repaint name value)) := by
  by_cases hit : name = r.paint.name ∧ value = r.old
  · rw [repaint, if_pos hit, hit.1, hit.2]
    intro before s
    exact Pattern.rewrite_of_takes Pattern.takes_exactly (by simp [spelled])
  · rw [repaint, if_neg hit]
    exact (passes_spelled whole namePlain valuePlain hit).rewrites

/-- The name of an attribute that gives no colour. -/
def IsOther (name : Text) : Prop :=
  IsPlain name ∧ ¬ Paint.fill.name <:+ name ∧ ¬ Paint.stroke.name <:+ name

instance (name : Text) : Decidable (IsOther name) :=
  inferInstanceAs (Decidable (_ ∧ _))

theorem turns_tag (x name : Text) (unquoted : '"' ∉ x) (other : IsOther name) (plain : IsPlain value) :
    r.Turns (x ++ attr name value) (x ++ attr name value) := by
  obtain ⟨namePlain, noFill, noStroke⟩ := other
  have apart : ¬ r.paint.name <:+ name := by cases r.paint <;> assumption
  have kept : r.repaint name value = value := if_neg fun hit : name = _ ∧ _ => apart (hit.1 ▸ List.suffix_refl _)
  have spelledAlike := r.turns_spelled (fun whole => absurd whole apart) namePlain plain
  rw [kept] at spelledAlike
  rw [attr_eq, ← List.append_assoc]
  exact (turns_unquoted unquoted (by decide) (by decide)).append spelledAlike

theorem turns_attr (name : Text) (other : IsOther name) (plain : IsPlain value) :
    r.Turns (attr name value) (attr name value) :=
  turns_tag [] name List.not_mem_nil other plain

theorem turns_colour (q : Paint) (plain : IsPlain value) :
    r.Turns (attr q.name value) (attr q.name (r.repaint q.name value)) := by
  have whole : r.paint.name <:+ q.name → q.name = r.paint.name := by cases q <;> cases r.paint <;> decide
  rw [attr_eq, attr_eq]
  exact (turns_unquoted (x := []) List.not_mem_nil (by decide) (by decide)).append
    (turns_spelled whole q.isPlain_name plain)

theorem turns_canvasElement (n : Int) : r.Turns (canvasElement n) (canvasElement n) := by
  have sides := (turns_tag (r := r) "<svg" "width" (by decide) (by decide) (isPlain_ofInt canvasWidth)).append
    (turns_attr "height" (by decide) (isPlain_ofInt n))
  have link : IsPlain "http://www.w3.org/2000/svg" := by decide
  have front := sides.append (turns_attr "xmlns" (by decide) link)
  exact front.append (turns_unquoted (x := []) (c := '>') List.not_mem_nil (by decide) (by decide))

theorem turns_boxElement (n : Int) (stroke : IsPlain p.stroke) (fill : IsPlain p.fill) :
    r.Turns (boxElement p n) (boxElement (r.palette p) n) := by
  have place := (turns_tag (r := r) "  <rect" "x" (by decide) (by decide) (isPlain_ofInt margin)).append
    (turns_attr "y" (by decide) (isPlain_ofInt margin))
  have size := (place.append (turns_attr "width" (by decide) (isPlain_ofInt (canvasWidth - 2 * margin)))).append
    (turns_attr "height" (by decide) (isPlain_ofInt (n - 2 * margin)))
  have colours := (size.append (turns_colour .fill fill)).append (turns_colour .stroke stroke)
  exact colours.append (turns_unquoted (x := " /") (c := '>') (by decide) (by decide) (by decide))

theorem turns_content (content : Text) :
    r.Turns (">".toList ++ (Text.markup content ++ "</text>".toList))
      (">".toList ++ (Text.markup content ++ "</text>".toList)) := by
  have absent : '"' ∉ Text.markup content := Text.not_mem_markup (by decide)
  have tags : '"' ∉ ">".toList ∧ '"' ∉ "</text".toList := by decide
  have unquoted : '"' ∉ ">".toList ++ (Text.markup content ++ "</text".toList) := by
    rw [List.mem_append, List.mem_append, not_or, not_or]
    exact ⟨tags.1, absent, tags.2⟩
  have whole := turns_unquoted (r := r) unquoted (c := '>') (by decide) (by decide)
  rw [List.append_assoc, List.append_assoc] at whole
  exact whole

theorem turns_textElement (i j : Int) {anchor size colour : Text} (content : Text) (anchorPlain : IsPlain anchor)
    (sizePlain : IsPlain size) (colourPlain : IsPlain colour) :
    r.Turns (textElement i j anchor size colour content)
      (textElement i j anchor size (r.repaint "fill" colour) content) := by
  have place := (turns_tag (r := r) "  <text" "x" (by decide) (by decide) (isPlain_ofInt i)).append
    (turns_attr "y" (by decide) (isPlain_ofInt j))
  have family : IsPlain "Arial" := by decide
  have font := ((place.append (turns_attr "text-anchor" (by decide) anchorPlain)).append
    (turns_attr "font-family" (by decide) family)).append (turns_attr "font-size" (by decide) sizePlain)
  have opening := font.append (turns_colour .fill colourPlain)
  have whole := opening.append (turns_content content)
  unfold textElement
  simp only [List.append_assoc] at whole ⊢
  exact whole

theorem turns_line (h : r.Turns x y) (rest : r.Turns u v) : r.Turns (x ++ '\n' :: u) (y ++ '\n' :: v) := by
  have feed := turns_unquoted (r := r) (x := []) (c := '\n') List.not_mem_nil (by decide) (by decide)
  exact h.append (feed.append rest)

theorem turns_labelLines {colour : Text} (plain : IsPlain colour) (row : Int) (ports : List Port) :
    r.Turns (labelLines colour row ports) (labelLines (r.repaint "fill" colour) row ports) := by
  induction ports generalizing row with
  | nil => exact turns_unquoted (x := "</svg>") (c := '\n') (by decide) (by decide) (by decide)
  | cons p ports ih =>
      have anchor : ∀ a : Anchor, IsPlain a.name := fun a => by cases a <;> decide
      rw [labelLines_cons, labelLines_cons]
      exact turns_line (turns_textElement _ _ _ (anchor _) (by decide) plain) (ih (row + 1))

end Repainting

/-- The drawing in the colours of a palette. -/
def drawing (p : Palette) (title : Text) (ports : List Port) : Text :=
  canvasElement (height ports.length) ++ '\n' :: (boxElement p (height ports.length) ++
    '\n' :: (titleElement p title ++ '\n' :: labelLines p.text 0 ports))

/-- Each colour of the palette can be the value of an attribute. -/
structure PlainPalette (p : Palette) : Prop where
  stroke : IsPlain p.stroke
  fill : IsPlain p.fill
  text : IsPlain p.text

namespace Repainting

theorem isPlain_repaint (plain : IsPlain value) : IsPlain (r.repaint name value) := by
  unfold repaint
  split
  · exact r.newPlain
  · exact plain

theorem plainPalette (plain : PlainPalette p) : PlainPalette (r.palette p) :=
  ⟨isPlain_repaint plain.stroke, isPlain_repaint plain.fill, isPlain_repaint plain.text⟩

/-- A repainted drawing is the drawing in repainted colours. -/
theorem apply_drawing (plain : PlainPalette p) (title : Text) (ports : List Port) :
    r.apply (drawing p title ports) = drawing (r.palette p) title ports := by
  have label : r.Turns (titleElement p title) (titleElement (r.palette p) title) :=
    turns_textElement _ _ title (by decide) (by decide) plain.text
  have lines := turns_line label (turns_labelLines plain.text 0 ports)
  have box := turns_line (turns_boxElement (height ports.length) plain.stroke plain.fill) lines
  exact (turns_line (turns_canvasElement _) box).replaceAll_eq

theorem foldl_apply_drawing (steps : List Repainting) (plain : PlainPalette p) (title : Text) (ports : List Port) :
    steps.foldl (fun t r => r.apply t) (drawing p title ports) =
      drawing (steps.foldl (fun p r => r.palette p) p) title ports := by
  induction steps generalizing p with
  | nil => rfl
  | cons r steps ih => rw [List.foldl_cons, List.foldl_cons, apply_drawing plain, ih (plainPalette plain)]

end Repainting

/-- The colours of the light drawing that the dark one has others for. -/
def darkening : List Repainting :=
  [⟨.fill, "none", "#374151", by decide, by decide⟩, ⟨.fill, "black", "white", by decide, by decide⟩,
    ⟨.stroke, "black", "white", by decide, by decide⟩]

example : darkening.map (fun r => String.ofList r.found) = ["fill=\"none\"", "fill=\"black\"", "stroke=\"black\""] := by
  decide

/-- No place at which a colour is replaced lies in the content of an element or reaches into it. -/
theorem Repainting.outside_content (r : Repainting) {content : Text}
    (h : x ++ '>' :: (Text.markup content ++ '<' :: y) = u ++ (r.found ++ v)) :
    u ++ r.found <+: x ∨ r.found ++ v <:+ y := by
  have nonempty : r.found ≠ [] := List.ne_nil_of_mem r.quote_mem_found
  have opening : '>' ∉ r.found := not_mem_found (by decide) (by decide)
  have closing : '<' ∉ r.found := not_mem_found (by decide) (by decide)
  refine (Text.before_or_behind opening nonempty h).imp_right ?_
  rintro ⟨w, -, rest⟩
  rcases Text.before_or_behind closing nonempty rest with inside | ⟨z, -, behind⟩
  · have quote := inside.subset (List.mem_append_right w r.quote_mem_found)
    exact absurd quote (Text.not_mem_markup (by decide))
  · exact ⟨z, behind.symm⟩

/-- The dark drawing is the light one with other colours, and the colours are replaced in no name and in no title. -/
theorem svg_repainted (title : Text) (ports : List Port) :
    darkening.foldl (fun t r => r.apply t) (svg false title ports) = svg true title ports ∧
      ∀ (r : Repainting) (content x y u v : Text),
        x ++ '>' :: (Text.markup content ++ '<' :: y) = u ++ (r.found ++ v) →
          u ++ r.found <+: x ∨ r.found ++ v <:+ y := by
  refine ⟨?_, fun r content x y u v => r.outside_content⟩
  have light : PlainPalette (.ofDark false) := ⟨by decide, by decide, by decide⟩
  rw [svg_eq, svg_eq]
  exact Repainting.foldl_apply_drawing darkening light title ports

end Pinout.Diagram
