/-! # Text

A text is a list of characters. Positions and lengths count code points, and every function on
texts is a function on lists.

What is handed to the program may also hold surrogates. These are code points but no characters: a
byte of an argument that belongs to no character arrives as one. So a raw text can hold more than a
text, and it can be shown and passed on, but not every raw text can be encoded.
-/

namespace Pinout

abbrev Text := List Char

/-- A string literal stands for its characters. -/
instance : Coe String Text := ⟨String.toList⟩

inductive CodePoint where
  | char (c : Char)
  /-- The surrogate that stands `offset` behind U+D800. -/
  | surrogate (offset : Fin 0x800)
  deriving DecidableEq, Repr

abbrev RawText := List CodePoint

def Text.raw (t : Text) : RawText :=
  t.map .char

instance : Coe Text RawText := ⟨Text.raw⟩

namespace CodePoint

def toNat : CodePoint → Nat
  | char c => c.toNat
  | surrogate offset => 0xD800 + offset

def isSurrogate : CodePoint → Bool
  | char _ => false
  | surrogate _ => true

end CodePoint

namespace RawText

def joinWith (separator : RawText) (parts : List RawText) : RawText :=
  separator.intercalate parts

/-- The text that a raw text is, if it holds no surrogate. -/
def plain? : RawText → Option Text
  | [] => some []
  | .char c :: rest => (plain? rest).map (c :: ·)
  | .surrogate _ :: _ => none

end RawText

namespace Text

/-- Closed ranges of code points, ascending and apart, that have a property. -/
abbrev CodeRanges := List (Nat × Nat)

/-- Whether a code point lies in one of the ranges. The search ends at the first range above it. -/
def CodeRanges.contains : CodeRanges → Nat → Bool
  | [], _ => false
  | (low, high) :: rest, code => low ≤ code && (code ≤ high || contains rest code)

def joinWith (separator : Text) (parts : List Text) : Text :=
  separator.intercalate parts

/-- The lines in order, with a line break between neighbours and none at the end. -/
def joinLines (lines : List Text) : Text :=
  joinWith ['\n'] lines

/-- The lines of all sections in order, each with a line break after it. -/
def document (sections : List (List Text)) : Text :=
  sections.flatten.flatMap (· ++ ['\n'])

/-- Puts `mark` after every part but the last. -/
def punctuate (mark : Text) : List Text → List Text
  | [] => []
  | [part] => [part]
  | part :: rest => (part ++ mark) :: punctuate mark rest

/-- Lists the rows below the heading, or nothing when there is no row. -/
def section? (heading rows : List Text) : List Text :=
  if rows.isEmpty then [] else heading ++ rows

def ofInt : Int → Text
  | .ofNat n => Nat.toDigits 10 n
  | .negSucc n => '-' :: Nat.toDigits 10 (n + 1)

def ofNat (n : Nat) : Text :=
  Nat.toDigits 10 n

theorem length_punctuate (mark : Text) (parts : List Text) :
    (punctuate mark parts).length = parts.length := by
  fun_induction punctuate mark parts <;> simp_all

end Text

end Pinout
