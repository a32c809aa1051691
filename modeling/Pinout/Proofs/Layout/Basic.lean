import Mathlib.Data.List.Infix
import Pinout.Proofs.Pattern.Keywords
import Pinout.Proofs.Text.Trim

/-! # Layouts of a declaration

A declaration is a list of tokens. Laid out, every token has a gap of blanks behind it; between two
words the gap is not empty.
-/

namespace Pinout

/-- A name: a text of word characters, keywords among them. -/
structure Name where
  text : Text
  nonempty : text ≠ []
  word : ∀ c ∈ text, Text.isWord c = true

/-- A keyword in ASCII letters of either case. -/
structure Spelling (keyword : Text) where
  text : Text
  folded : text.map Char.toLower = keyword

/-- Every parenthesis has its partner. -/
def Balanced (t : Text) : Prop :=
  t.count '(' = t.count ')' ∧ ∀ front ∈ t.inits, front.count ')' ≤ front.count '('

instance (t : Text) : Decidable (Balanced t) :=
  inferInstanceAs (Decidable (_ ∧ _))

/-- A part of a declaration as it is written. -/
structure Token where
  text : Text
  /-- Whether the token is a word, which has to stand apart from the words beside it. -/
  isWord : Bool
  /-- Whether the gap behind the token stays on its line. -/
  isInline : Bool := false
  deriving DecidableEq, Repr

theorem Name.stops_blank (name : Name) (s : Text) : Pattern.Stops Text.isBlank (name.text ++ s) :=
  Pattern.stops_append name.nonempty fun c hc =>
    Text.not_isBlank_of_isWord (name.word c (List.mem_of_mem_head? hc))

namespace Token

def word (t : Text) : Token := { text := t, isWord := true }

/-- A punctuation mark, or a text that has punctuation on both sides. -/
def mark (t : Text) : Token := { text := t, isWord := false }

/-- `gap` may stand between a token and the tokens behind it. -/
structure Gap (token : Token) (behind : List Token) (gap : Text) : Prop where
  blank : ∀ c ∈ gap, Text.isBlank c = true
  apart : token.isWord = true → behind.head?.any Token.isWord = true → gap ≠ []
  inline : token.isInline = true → '\n' ∉ gap

instance (token : Token) (behind : List Token) (gap : Text) : Decidable (token.Gap behind gap) :=
  decidable_of_iff
    ((∀ c ∈ gap, Text.isBlank c = true) ∧
      (token.isWord = true → behind.head?.any Token.isWord = true → gap ≠ []) ∧
      (token.isInline = true → '\n' ∉ gap))
    ⟨fun ⟨blank, apart, inline⟩ => ⟨blank, apart, inline⟩,
      fun ⟨blank, apart, inline⟩ => ⟨blank, apart, inline⟩⟩

def Fits : List Token → List Text → Prop
  | [], [] => True
  | token :: tokens, gap :: gaps => token.Gap tokens gap ∧ Fits tokens gaps
  | [], _ :: _ => False
  | _ :: _, [] => False

instance decidableFits : (tokens : List Token) → (gaps : List Text) → Decidable (Fits tokens gaps)
  | [], [] => .isTrue trivial
  | token :: tokens, gap :: gaps =>
    have := decidableFits tokens gaps
    inferInstanceAs (Decidable (token.Gap tokens gap ∧ Fits tokens gaps))
  | [], _ :: _ => .isFalse id
  | _ :: _, [] => .isFalse id

def layOut : List Token → List Text → Text
  | token :: tokens, gap :: gaps => token.text ++ (gap ++ layOut tokens gaps)
  | _, _ => []

def separated (separator : Text) : List (List Token) → List Token
  | [] => []
  | [part] => part
  | part :: next :: parts => part ++ mark separator :: separated separator (next :: parts)

variable {token : Token} {tokens behind : List Token} {gaps : List Text}

theorem Fits.cons (h : Fits (token :: tokens) gaps) :
    ∃ gap gaps', gaps = gap :: gaps' ∧ token.Gap tokens gap ∧ Fits tokens gaps' := by
  cases gaps with
  | nil => exact h.elim
  | cons gap gaps => exact ⟨gap, gaps, rfl, h⟩

theorem Fits.drop (h : Fits (tokens ++ behind) gaps) : Fits behind (gaps.drop tokens.length) := by
  induction tokens generalizing gaps with
  | nil => exact h
  | cons token tokens ih =>
      obtain ⟨gap, gaps, rfl, -, fits⟩ := h.cons
      exact ih fits

theorem Fits.take (h : Fits (tokens ++ behind) gaps) : Fits tokens (gaps.take tokens.length) := by
  induction tokens generalizing gaps with
  | nil => simp [Fits]
  | cons token tokens ih =>
      obtain ⟨gap, gaps, rfl, gapFits, fits⟩ := h.cons
      refine ⟨⟨gapFits.blank, fun isWord next => gapFits.apart isWord ?_, gapFits.inline⟩, ih fits⟩
      cases tokens with
      | nil => cases next
      | cons => exact next

theorem layOut_take (tokens : List Token) (gaps : List Text) :
    layOut tokens (gaps.take tokens.length) = layOut tokens gaps := by
  induction tokens generalizing gaps with
  | nil => cases gaps <;> rfl
  | cons token tokens ih =>
      cases gaps with
      | nil => rfl
      | cons gap gaps => simp only [List.length_cons, List.take_succ_cons, layOut, ih]

@[simp] theorem layOut_append (tokens behind : List Token) (gaps : List Text) :
    layOut (tokens ++ behind) gaps = layOut tokens gaps ++ layOut behind (gaps.drop tokens.length) := by
  induction tokens generalizing gaps with
  | nil => cases gaps <;> rfl
  | cons token tokens ih =>
      cases gaps with
      | nil => cases behind <;> rfl
      | cons gap gaps =>
          rw [List.cons_append, layOut, layOut, ih]
          simp

theorem Gap.not_word {gap : Text} (h : token.Gap behind gap) :
    ∀ c ∈ gap, Text.isWord c = false := fun c hc =>
  Text.isWord_of_isBlank (h.blank c hc)

/-- What stands behind the gap in front of a mark does not begin with a character of a class that holds
neither blanks nor the mark. -/
theorem Gap.stops_mark {gap : Text} {c : Char} {accepts : Char → Bool}
    (h : token.Gap (mark [c] :: behind) gap) (fits : Fits (mark [c] :: behind) gaps)
    (blank : ∀ d, Text.isBlank d = true → accepts d = false) (closed : accepts c = false) :
    Pattern.Stops accepts (gap ++ layOut (mark [c] :: behind) gaps) := by
  cases gap with
  | nil =>
      obtain ⟨_, _, rfl, -, -⟩ := fits.cons
      exact Pattern.stops_cons.mpr closed
  | cons d gap => exact Pattern.stops_cons.mpr (blank d (h.blank d (by simp)))

theorem any_lastOf_mark {before : Option Char} {c : Char} (plain : Text.isWord c = false)
    (fits : Fits (tokens ++ mark [c] :: behind) gaps) :
    (lastOf before (layOut (tokens ++ [mark [c]]) gaps)).any Text.isWord = false := by
  obtain ⟨gap, gaps', dropped, gapFits, -⟩ := fits.drop.cons
  have last : layOut [mark [c]] (gap :: gaps') = c :: gap := by
    cases gaps' <;> simp [layOut, mark]
  rw [layOut_append, dropped, last, lastOf_append, lastOf_cons]
  exact Pattern.any_lastOf_eq_false plain gapFits.not_word

end Token

namespace Spelling

variable {keyword : Text}

theorem ascii (s : Spelling keyword) (key : ∀ letter ∈ keyword, Pattern.isKeyLetter letter = true) :
    ∀ c ∈ s.text, c.toNat < 128 := by
  intro c hc
  have mem : c.toLower ∈ keyword := by
    rw [← s.folded]
    exact List.mem_map_of_mem hc
  have key := key _ mem
  by_contra above
  rw [Pattern.toLower_of_not_ascii (Nat.le_of_not_lt above)] at key
  exact above (Pattern.ascii_of_isKeyLetter key)

theorem toLower (s : Spelling keyword) (key : ∀ letter ∈ keyword, Pattern.isKeyLetter letter = true) :
    Text.toLower s.text = keyword := by
  rw [Text.toLower_of_ascii (s.ascii key), s.folded]

theorem spells (s : Spelling keyword) : Pattern.Spells keyword s.text := by
  have folded := s.folded
  rw [← List.forall₂_eq_eq_eq, List.forall₂_map_left_iff] at folded
  exact folded.flip.imp fun letter c same => by simp [Pattern.isVariant, same]

theorem word (s : Spelling keyword) (key : ∀ letter ∈ keyword, Pattern.isKeyLetter letter = true) :
    ∀ c ∈ s.text, Text.isWord c = true :=
  s.spells.word key

theorem ne_nil (s : Spelling keyword) (nonempty : keyword ≠ []) : s.text ≠ [] :=
  s.spells.ne_nil nonempty

theorem exists_append (first second : Text) (s : Spelling (first ++ second)) :
    ∃ (x : Spelling first) (y : Spelling second), s.text = x.text ++ y.text := by
  obtain ⟨x, y, text, hx, hy⟩ := List.map_eq_append_iff.mp s.folded
  exact ⟨⟨x, hx⟩, ⟨y, hy⟩, text⟩

theorem refuses {other t : Text} {before : Option Char} (s : Spelling keyword)
    (key : ∀ letter ∈ keyword, Pattern.isKeyLetter letter = true)
    (otherKey : ∀ letter ∈ other, Pattern.isKeyLetter letter = true)
    (differs : ¬ other <+: keyword ∧ ¬ keyword <+: other) :
    (Pattern.keyword other).Refuses before (s.text ++ t) :=
  s.spells.refuses key otherKey differs

end Spelling

end Pinout
