import Pinout.Proofs.Vhdl.EntityHeader
import Pinout.Proofs.Vhdl.Uncommented
import Pinout.Vhdl.Instance

/-! # Entities with a generic clause

An entity that declares its generics the way a component does. A separator behind a declaration may
end the clause, or even the header, too early; otherwise the declaration keeps them open.
-/

namespace Pinout.Vhdl

/-- A bound of a range. -/
structure Bound where
  text : Text
  nonempty : text ≠ []
  plain : ∀ c ∈ text, Text.isBlank c = false ∧ c ≠ '(' ∧ c ≠ ')' ∧ c ≠ ';' ∧ c ≠ '"'
  commentFree : ¬ ['-', '-'] <:+: text

/-- Which way a range goes. -/
inductive RangeOrder where
  | descending
  | ascending
  deriving DecidableEq, Repr

def RangeOrder.keyword : RangeOrder → Text
  | descending => "downto"
  | ascending => "to"

/-- The range of a generic. -/
structure Bounds where
  first : Bound
  order : RangeOrder
  second : Bound

def Bounds.text (b : Bounds) : Text :=
  b.first.text ++ ([' '] ++ (b.order.keyword ++ ([' '] ++ b.second.text)))

/-- The default of a generic. -/
structure Default where
  text : Text
  nonempty : text ≠ []
  trimmed : Text.trim text = text
  balanced : Balanced text
  plain : ∀ c ∈ text, c ≠ ';' ∧ c ≠ '"'
  commentFree : ¬ ['-', '-'] <:+: text

/-- A generic of an entity. -/
structure GenericDeclaration where
  name : Name
  type : Name
  bounds : Option Bounds
  default : Option Default

def GenericDeclaration.generic (d : GenericDeclaration) : Generic where
  name := d.name.text
  dataType := some d.type.text
  width := d.bounds.map Bounds.text
  default := d.default.map Default.text

def entityWord : Text := "entity "

/-- What stands behind the name of an entity. -/
def isWord : Text := " is"

def genericOpening : Text := "  generic ("

def endWord : Text := "end "

def printed (name : Text) (generics : List Generic) : Text :=
  Text.joinLines (List.flatten
    [[entityWord ++ name ++ isWord], declarationClause genericOpening (generics.map genericDeclaration),
      [endWord ++ name ++ [';']]])

/-- A separator behind the declaration ends neither the generic clause nor the entity. -/
def KeepsOpen (g : Generic) : Prop :=
  (genericDeclaration g).getLast? ≠ some ')' ∧
    entityEndPattern.search? (genericDeclaration g ++ [';']) = none

instance (g : Generic) : Decidable (KeepsOpen g) :=
  inferInstanceAs (Decidable (_ ∧ _))

def margin : Text := "    "

/-- What stands between a name and its type. -/
def typeMark : Text := " : "

/-- What stands in front of a default. -/
def defaultMark : Text := " := "

def clauseGap : Text := "\n  "

def clauseEnd : Text := [')', ';']

def rangeText : Option Bounds → Text
  | none => []
  | some b => ['('] ++ (b.text ++ [')'])

def defaultText : Option Default → Text
  | none => []
  | some v => defaultMark ++ v.text

def GenericDeclaration.text (d : GenericDeclaration) : Text :=
  d.name.text ++ (typeMark ++ (d.type.text ++ (rangeText d.bounds ++ defaultText d.default)))

theorem GenericDeclaration.text_ne_nil (d : GenericDeclaration) : d.text ≠ [] := by
  simp [text, typeMark]

def GenericDeclaration.line (d : GenericDeclaration) : Text :=
  '\n' :: (margin ++ d.text)

def items (ds : List GenericDeclaration) : Text :=
  ds.flatMap fun d => d.line ++ [';']

variable {d : GenericDeclaration} {p : Pattern} {before : Option Char} {c : Char} {s : Text}

theorem Bounds.text_ne_nil (b : Bounds) : b.text ≠ [] := by
  simp [Bounds.text, b.first.nonempty]

theorem genericSubtype_generic (d : GenericDeclaration) :
    genericSubtype d.generic = d.type.text ++ rangeText d.bounds := by
  obtain ⟨name, type, bounds, default⟩ := d
  cases bounds with
  | none => simp [genericSubtype, GenericDeclaration.generic, rangeText, textOrEmpty]
  | some b =>
      obtain ⟨c, rest, text⟩ := List.exists_cons_of_ne_nil b.text_ne_nil
      simp [genericSubtype, GenericDeclaration.generic, rangeText, ranged, text]

theorem genericDeclaration_generic (d : GenericDeclaration) :
    genericDeclaration d.generic = margin ++ d.text := by
  have parts : genericDeclaration d.generic =
      margin ++ d.name.text ++ typeMark ++ genericSubtype d.generic ++ defaultText d.default := by
    obtain ⟨name, type, bounds, default⟩ := d
    cases default <;> rfl
  rw [parts, genericSubtype_generic, GenericDeclaration.text]
  simp only [List.append_assoc]

theorem joinLines_cons {lines : List Text} (h : lines ≠ []) (line : Text) :
    Text.joinLines (line :: lines) = line ++ '\n' :: Text.joinLines lines := by
  obtain ⟨next, rest, rfl⟩ := List.exists_cons_of_ne_nil h
  simp [Text.joinLines, Text.joinWith]

theorem punctuate_cons {parts : List Text} (h : parts ≠ []) (mark part : Text) :
    Text.punctuate mark (part :: parts) = (part ++ mark) :: Text.punctuate mark parts := by
  obtain ⟨next, rest, rfl⟩ := List.exists_cons_of_ne_nil h
  rfl

theorem joinLines_punctuate (front : List GenericDeclaration) (last : GenericDeclaration)
    {lines : List Text} (h : lines ≠ []) :
    '\n' :: Text.joinLines (Text.punctuate [';'] ((front ++ [last]).map fun d => margin ++ d.text) ++
      lines) = items front ++ (last.line ++ '\n' :: Text.joinLines lines) := by
  induction front with
  | nil =>
      rw [List.nil_append, List.map_singleton, Text.punctuate, List.singleton_append, joinLines_cons h]
      simp [items, GenericDeclaration.line]
  | cons d front ih =>
      rw [List.cons_append, List.map_cons, punctuate_cons (by simp), List.cons_append,
        joinLines_cons (by simp [h]), ih]
      simp [items, GenericDeclaration.line]

def clauseOpening : Text := '\n' :: genericOpening

def entityEnd (name : Name) : Text :=
  '\n' :: (endWord ++ (name.text ++ [';']))

theorem printed_eq (name : Name) (front : List GenericDeclaration) (last : GenericDeclaration) :
    printed name.text ((front ++ [last]).map GenericDeclaration.generic) =
      opening name [' '] [' '] ++ (clauseOpening ++ (items front ++ (last.line ++
        (clauseGap ++ (clauseEnd ++ entityEnd name))))) := by
  have declarations : ((front ++ [last]).map GenericDeclaration.generic).map genericDeclaration =
      (front ++ [last]).map fun d => margin ++ d.text := by
    rw [List.map_map]
    exact List.map_congr_left fun d _ => genericDeclaration_generic d
  have clause : declarationClause genericOpening ((front ++ [last]).map fun d => margin ++ d.text) =
      genericOpening :: (Text.punctuate [';'] ((front ++ [last]).map fun d => margin ++ d.text) ++
        ["  );".toList]) := by
    simp [declarationClause]
  have text := joinLines_punctuate front last (List.cons_ne_nil "  );".toList [endWord ++ name.text ++ [';']])
  have words : entityWord = entityKeyword ++ [' '] ∧ isWord = [' '] ++ isKeyword := ⟨rfl, rfl⟩
  have first : entityWord ++ name.text ++ isWord = opening name [' '] [' '] := by
    rw [words.1, words.2, opening]
    simp only [List.append_assoc]
  rw [printed, declarations, clause, List.flatten_cons, List.singleton_append, first,
    joinLines_cons (by simp), List.flatten_cons, List.cons_append, joinLines_cons (by simp)]
  rw [List.append_assoc, List.flatten_singleton, List.singleton_append, text, joinLines_cons (by simp)]
  simp only [clauseOpening, clauseGap, clauseEnd, entityEnd, Text.joinLines, Text.joinWith,
    List.intercalate_singleton, List.append_assoc, List.cons_append]
  rfl

theorem RangeOrder.word (order : RangeOrder) : ∀ c ∈ order.keyword, Text.isWord c = true := by
  cases order <;> decide

theorem Bounds.unclosed (b : Bounds) : ')' ∉ b.text := by
  simp only [Bounds.text, List.mem_append, List.mem_singleton]
  rintro (h | h | h | h | h)
  · exact (b.first.plain _ h).2.2.1 rfl
  · exact absurd h (by decide)
  · exact absurd (b.order.word _ h) (by decide)
  · exact absurd h (by decide)
  · exact (b.second.plain _ h).2.2.1 rfl

theorem GenericDeclaration.forall_mem_text {property : Char → Prop}
    (word : ∀ c, Text.isWord c = true → property c) (marks : ∀ c ∈ [' ', ':', '=', '(', ')'], property c)
    (bound : ∀ (b : Bound), ∀ c ∈ b.text, property c) (value : ∀ (v : Default), ∀ c ∈ v.text, property c)
    (d : GenericDeclaration) : ∀ c ∈ d.text, property c := by
  have range : ∀ c ∈ rangeText d.bounds, property c := by
    cases d.bounds with
    | none => simp [rangeText]
    | some b =>
        simp only [rangeText, Bounds.text, List.mem_append, List.mem_singleton]
        rintro c (rfl | (h | rfl | h | rfl | h) | rfl)
        · exact marks _ (by decide)
        · exact bound b.first c h
        · exact marks _ (by decide)
        · exact word c (b.order.word c h)
        · exact marks _ (by decide)
        · exact bound b.second c h
        · exact marks _ (by decide)
  have default : ∀ c ∈ defaultText d.default, property c := by
    cases d.default with
    | none => simp [defaultText]
    | some v =>
        simp only [defaultText, List.mem_append]
        have blanks : defaultMark ⊆ [' ', ':', '=', '(', ')'] := by decide
        rintro c (h | h)
        · exact marks c (blanks h)
        · exact value v c h
  have blanks : typeMark ⊆ [' ', ':', '=', '(', ')'] := by decide
  simp only [GenericDeclaration.text, List.mem_append]
  rintro c (h | h | h | h | h)
  · exact word c (d.name.word c h)
  · exact marks c (blanks h)
  · exact word c (d.type.word c h)
  · exact range c h
  · exact default c h

theorem GenericDeclaration.plain (d : GenericDeclaration) : ∀ c ∈ d.text, c ≠ ';' ∧ c ≠ '"' := by
  refine d.forall_mem_text (fun c h => ?_) (by decide) (fun b c h => ?_) fun v => v.plain
  · exact ⟨Text.ne_of_isWord h (by decide), Text.ne_of_isWord h (by decide)⟩
  · exact (b.plain c h).2.2.2

theorem quiet_items {ds : List GenericDeclaration}
    (each : ∀ d ∈ ds, ∀ before s, p.Quiet before (d.line ++ [';']) ('\n' :: s)) (before : Option Char) (s : Text) :
    p.Quiet before (items ds) ('\n' :: s) := by
  induction ds generalizing before with
  | nil => trivial
  | cons d ds ih =>
      have rest := ih (fun d h => each d (List.mem_cons_of_mem _ h)) (lastOf before (d.line ++ [';']))
      refine Pattern.Quiet.append ?_ rest
      cases ds with
      | nil => exact each d (by simp) before _
      | cons e ds => exact each d (by simp) before _

theorem isWord_of_mem_opening (name : Name) : ∀ c ∈ opening name [' '] [' '], Text.isWord c = true ∨ c = ' ' := by
  have keywords : ∀ c ∈ entityKeyword ++ isKeyword, Text.isWord c = true := by decide
  simp only [opening, List.mem_append, List.mem_singleton] at keywords ⊢
  rintro c ((((h | h) | h) | h) | h)
  · exact .inl (keywords c (.inl h))
  · exact .inr h
  · exact .inl (name.word c h)
  · exact .inr h
  · exact .inl (keywords c (.inr h))

/-- A printed entity is quiet if its declarations are. -/
theorem quiet_printed (reads : p.nullable = false) (word : ∀ c, Text.isWord c = true → p.opens c = false)
    (marks : ∀ c ∈ [' ', '\n', '(', ')', ';'], p.opens c = false)
    (text : ∀ (d : GenericDeclaration) before c s, c = ';' ∨ c = '\n' → p.Quiet before d.text (c :: s))
    (name : Name) (front : List GenericDeclaration) (last : GenericDeclaration) :
    p.Quiet none (printed name.text ((front ++ [last]).map GenericDeclaration.generic)) [] := by
  have closed : ∀ {before x s}, (∀ c ∈ x, Text.isWord c = true ∨ c ∈ [' ', '\n', '(', ')', ';']) →
      p.Quiet before x s := fun h =>
    Pattern.quiet_of_closed reads fun c hc => (h c hc).elim (word c) (marks c)
  have line : ∀ (d : GenericDeclaration) before c s, c = ';' ∨ c = '\n' → p.Quiet before d.line (c :: s) :=
    fun d before c s next => .append (x := '\n' :: margin) (closed (by decide)) (text d _ c s next)
  have each : ∀ d ∈ front, ∀ before s, p.Quiet before (d.line ++ [';']) ('\n' :: s) := fun d _ before s =>
    (line d before ';' _ (.inl rfl)).append (closed (by decide))
  rw [printed_eq]
  refine .append (closed ?_) (.append (closed (by decide)) (.append (quiet_items each _ _)
    (.append (line last _ '\n' _ (.inr rfl)) (.append (closed (by decide))
      (.append (closed (by decide)) (.append (x := '\n' :: endWord) (closed (by decide))
        (.append (closed fun c h => .inl (name.word c h)) (closed (by decide)))))))))
  exact fun c h => (isWord_of_mem_opening name c h).imp_right (by rintro rfl; decide)

section Comments

variable (name : Name) (front : List GenericDeclaration) (last : GenericDeclaration)

theorem GenericDeclaration.quiet_comment (d : GenericDeclaration) (stops : Pattern.Stops (· == '-') s) :
    commentPattern.Quiet before d.text s := by
  have closed : ∀ {before x s}, '-' ∉ x → commentPattern.Quiet before x s := fun h =>
    Pattern.quiet_of_closed rfl fun c hc => opens_commentPattern fun same => h (same ▸ hc)
  have word : ∀ {before x s}, (∀ c ∈ x, Text.isWord c = true) → commentPattern.Quiet before x s :=
    fun h => closed fun hc => Text.ne_of_isWord (h _ hc) (by decide) rfl
  have range : ∀ before s, commentPattern.Quiet before (rangeText d.bounds) s := by
    intro before s
    cases d.bounds with
    | none => trivial
    | some b =>
        refine .append (closed (by decide)) (.append (.append (quiet_commentPattern b.first.commentFree ?_)
          (.append (closed (by decide)) (.append (word b.order.word) (.append (closed (by decide))
            (quiet_commentPattern b.second.commentFree ?_))))) (closed (by decide)))
        · exact Pattern.stops_cons.mpr (by decide)
        · exact Pattern.stops_cons.mpr (by decide)
  have default : ∀ before, commentPattern.Quiet before (defaultText d.default) s := by
    intro before
    cases d.default with
    | none => trivial
    | some v => exact .append (closed (by decide)) (quiet_commentPattern v.commentFree stops)
  exact .append (word d.name.word) (.append (closed (by decide)) (.append (word d.type.word)
    (.append (range _ _) (default _))))

theorem stripComments_printed :
    stripComments (printed name.text ((front ++ [last]).map GenericDeclaration.generic)) =
      printed name.text ((front ++ [last]).map GenericDeclaration.generic) := by
  refine Pattern.replaceAll_of_quiet _ (quiet_printed rfl (fun c h => ?_) (by decide) ?_ name front last)
  · exact opens_commentPattern (Text.ne_of_isWord h (by decide))
  · rintro d before c s (rfl | rfl)
    · exact d.quiet_comment (Pattern.stops_cons.mpr (by decide))
    · exact d.quiet_comment (Pattern.stops_cons.mpr (by decide))

theorem maskStrings_printed :
    maskStrings (printed name.text ((front ++ [last]).map GenericDeclaration.generic)) =
      printed name.text ((front ++ [last]).map GenericDeclaration.generic) := by
  refine Pattern.replaceAll_of_quiet _ (quiet_printed rfl (fun c h => ?_) (by decide) ?_ name front last)
  · exact opens_stringPattern (Text.ne_of_isWord h (by decide))
  · exact fun d _ _ _ _ => Pattern.quiet_of_closed rfl fun c h => opens_stringPattern (d.plain c h).2

end Comments

end Pinout.Vhdl
