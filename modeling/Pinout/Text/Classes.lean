import Pinout.Text.WordTable

/-! # Blanks and word characters

White space is the Unicode property together with the four information separators. Trimming takes
it off both ends of a text. Names and keywords are made of word characters: letters, numbers and the
underscore.
-/

namespace Pinout

namespace Text

/-- White space of Unicode 14, and U+001C to U+001F. -/
def blankRanges : CodeRanges :=
  [(0x09, 0x0D), (0x1C, 0x20), (0x85, 0x85), (0xA0, 0xA0), (0x1680, 0x1680), (0x2000, 0x200A),
   (0x2028, 0x2029), (0x202F, 0x202F), (0x205F, 0x205F), (0x3000, 0x3000)]

def isBlank (c : Char) : Bool :=
  blankRanges.contains c.toNat

def trimLeft (t : Text) : Text :=
  t.dropWhile isBlank

/-- The text without the characters of a class at its end. -/
def dropRightWhile {α : Type} (drops : α → Bool) (t : List α) : List α :=
  (t.reverse.dropWhile drops).reverse

def trimRight (t : Text) : Text :=
  dropRightWhile isBlank t

def trim (t : Text) : Text :=
  trimRight (trimLeft t)

/-- Whether a character is a letter, a number or an underscore. -/
def isWord (c : Char) : Bool :=
  if c.toNat < 0x80 then c.isAlphanum || c == '_'
  else letterNumberRanges.contains c.toNat

end Text

def CodePoint.isBlank : CodePoint → Bool
  | char c => Text.isBlank c
  | surrogate _ => false

/-- The raw text without the blanks at its two ends. -/
def RawText.trim (t : RawText) : RawText :=
  Text.dropRightWhile CodePoint.isBlank (t.dropWhile CodePoint.isBlank)

end Pinout
