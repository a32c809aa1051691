import Pinout.Pattern.Basic
import Pinout.Text.Classes

/-! # Keywords and other common patterns

A keyword is read letter by letter. In either case, a letter also accepts the few characters beyond
ASCII that count as case variants of it.
-/

namespace Pinout.Pattern

/-- Whether `c` is a case variant of the small letter `letter`. -/
def isVariant (letter c : Char) : Bool :=
  c.toLower == letter ||
    (letter == 'i' && (c == 'İ' || c == 'ı')) ||
    (letter == 's' && c == 'ſ') ||
    (letter == 'k' && c == '\u212a')

/-- Reads the characters of a text as they are. -/
def exactly (t : Text) : Pattern :=
  t.foldr (fun c rest => char c ++ rest) empty

/-- Reads a text given in small letters, in either case. -/
def keyword (t : Text) : Pattern :=
  t.foldr (fun c rest => one (isVariant c) ++ rest) empty

/-- Reads blanks, if there are any. -/
def blanks : Pattern :=
  many Text.isBlank

/-- Reads at least one blank. -/
def gap : Pattern :=
  atLeastOne Text.isBlank

/-- Reads the longest run of word characters first, at least one. -/
def word : Pattern :=
  atLeastOne Text.isWord

end Pinout.Pattern
