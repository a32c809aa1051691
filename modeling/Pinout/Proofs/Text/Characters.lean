import Mathlib.Data.List.Forall2
import Pinout.Pattern.Letters

/-! # Classes of characters

No character is both a blank and a word character, and the case variants of a keyword's letters are
word characters. So a keyword always lies inside a run of word characters and a gap never does.
-/

namespace Pinout

namespace Text

/-- What holds of the characters of a text is decided on the text, not by going through all characters. -/
instance (priority := high) (property : Char → Prop) [DecidablePred property] (t : Text) :
    Decidable (∀ c ∈ t, property c) :=
  List.decidableBAll property t

/-- What holds of a text whenever it holds of all shorter ones holds of every text. -/
theorem shorter_induction {motive : Text → Prop}
    (step : ∀ t : Text, (∀ s : Text, s.length < t.length → motive s) → motive t) (t : Text) : motive t :=
  (measure List.length).wf.induction t step

theorem forall_bne {c : Char} {x : Text} (absent : c ∉ x) : ∀ d ∈ x, (d != c) = true := by
  intro d hd
  rw [bne_iff_ne]
  rintro rfl
  exact absent hd

private def blankCodes : List Nat :=
  [0x09, 0x0A, 0x0B, 0x0C, 0x0D, 0x1C, 0x1D, 0x1E, 0x1F, 0x20, 0x85, 0xA0, 0x1680, 0x2000, 0x2001,
   0x2002, 0x2003, 0x2004, 0x2005, 0x2006, 0x2007, 0x2008, 0x2009, 0x200A, 0x2028, 0x2029, 0x202F,
   0x205F, 0x3000]

private theorem mem_blankCodes {c : Char} (h : isBlank c = true) : c.toNat ∈ blankCodes := by
  simp only [isBlank, blankRanges, CodeRanges.contains, Bool.and_eq_true, Bool.or_eq_true,
    decide_eq_true_eq, Bool.false_eq_true, or_false] at h
  simp only [blankCodes, List.mem_cons, List.not_mem_nil, or_false]
  omega

/-- A property of all blanks is a property of a few characters. -/
theorem forall_blank (property : Char → Prop) (h : ∀ code ∈ blankCodes, property (Char.ofNat code))
    {c : Char} (blank : isBlank c = true) : property c := by
  have := h c.toNat (mem_blankCodes blank)
  rwa [Char.ofNat_toNat] at this

theorem isWord_of_isBlank {c : Char} (h : isBlank c = true) : isWord c = false :=
  forall_blank (isWord · = false) (by decide +kernel) h

theorem not_isBlank_of_isWord {c : Char} (h : isWord c = true) : isBlank c = false := by
  cases blank : isBlank c with
  | false => rfl
  | true =>
      rw [isWord_of_isBlank blank] at h
      cases h

theorem ne_of_isWord {c d : Char} (h : isWord c = true) (plain : isWord d = false) : c ≠ d := by
  rintro rfl
  rw [h] at plain
  cases plain

theorem not_mem_of_blank {c : Char} {g : Text} (blank : ∀ d ∈ g, isBlank d = true) (visible : isBlank c = false) :
    c ∉ g := by
  intro hc
  rw [blank c hc] at visible
  cases visible

end Text

namespace Pattern

/-- A letter of a keyword: a small letter or the underscore. -/
def isKeyLetter (letter : Char) : Bool :=
  letter.isLower || letter == '_'

/-- The characters of `w` are case variants of the letters of a keyword. -/
def Spells (keyword w : Text) : Prop :=
  List.Forall₂ (fun letter c => isVariant letter c = true) keyword w

theorem toLower_of_not_ascii {c : Char} (h : 128 ≤ c.toNat) : c.toLower = c := by
  have above : ¬ (c.val ≥ 'A'.val ∧ c.val ≤ 'Z'.val) := by
    rintro ⟨-, le⟩
    have : c.toNat ≤ 'Z'.toNat := UInt32.le_iff_toNat_le.mp le
    have : 'Z'.toNat = 90 := rfl
    omega
  exact dif_neg above

theorem ascii_of_isKeyLetter {c : Char} (h : isKeyLetter c = true) : c.toNat < 128 := by
  simp only [isKeyLetter, Bool.or_eq_true, beq_iff_eq] at h
  rcases h with small | rfl
  · have le : c.val ≤ 'z'.val := of_decide_eq_true (Bool.and_eq_true_iff.mp small).2
    have : c.toNat ≤ 'z'.toNat := UInt32.le_iff_toNat_le.mp le
    have : 'z'.toNat = 122 := rfl
    omega
  · decide

theorem toLower_of_isVariant {letter c : Char} (h : isVariant letter c = true) (ascii : c.toNat < 128) :
    c.toLower = letter := by
  simp only [isVariant, Bool.or_eq_true, Bool.and_eq_true, beq_iff_eq] at h
  rcases h with ((same | ⟨-, rfl | rfl⟩) | ⟨-, rfl⟩) | ⟨-, rfl⟩
  · exact same
  all_goals exact absurd ascii (by decide)

theorem Spells.folded {keyword w : Text} (h : Spells keyword w) (ascii : ∀ c ∈ w, c.toNat < 128) :
    w.map Char.toLower = keyword := by
  induction h with
  | nil => rfl
  | cons accepted _ ih =>
      rw [List.map_cons, toLower_of_isVariant accepted (ascii _ (by simp)),
        ih fun c hc => ascii c (by simp [hc])]

theorem isWord_of_isVariant {letter c : Char} (key : isKeyLetter letter = true)
    (h : isVariant letter c = true) : Text.isWord c = true := by
  simp only [isVariant, Bool.or_eq_true, Bool.and_eq_true, beq_iff_eq] at h
  rcases h with ((rfl | ⟨-, rfl | rfl⟩) | ⟨-, rfl⟩) | ⟨-, rfl⟩
  · by_cases ascii : c.toNat < 128
    · have small : ∀ code < 128, isKeyLetter (Char.ofNat code).toLower = true →
          Text.isWord (Char.ofNat code) = true := by decide
      have := small c.toNat ascii
      rw [Char.ofNat_toNat] at this
      exact this key
    · rw [toLower_of_not_ascii (Nat.le_of_not_lt ascii)] at key
      exact absurd (ascii_of_isKeyLetter key) ascii
  all_goals decide +kernel

end Pattern

end Pinout
