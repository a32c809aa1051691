import Pinout.Text.PrintableTable

/-! # Quoted and escaped text

Error messages show a text between quotes. Single quotes are used unless the text holds a single
quote and no double quote. What does not print is shown by its number. In markup the five characters
that are reserved there are written as character references.
-/

namespace Pinout

namespace Text

def isPrintable (c : Char) : Bool :=
  !unprintableRanges.contains c.toNat

/-- The hexadecimal digits of a number, filled up with zeros to the given width. -/
def hexDigits (width n : Nat) : Text :=
  let digits := Nat.toDigits 16 n
  List.replicate (width - digits.length) '0' ++ digits

/-- The number of a code point behind the mark for its size. -/
def numberEscape (code : Nat) : Text :=
  if code < 0x100 then "\\x" ++ hexDigits 2 code
  else if code < 0x10000 then "\\u" ++ hexDigits 4 code
  else "\\U" ++ hexDigits 8 code

end Text

/-- A code point as it stands between two quotes. -/
def CodePoint.quoted (quote : Char) : CodePoint → Text
  | char c =>
    if c = quote || c = '\\' then ['\\', c]
    else if c = '\n' then "\\n"
    else if c = '\r' then "\\r"
    else if c = '\t' then "\\t"
    else if Text.isPrintable c then [c]
    else Text.numberEscape c.toNat
  | surrogate offset => Text.numberEscape (surrogate offset).toNat

/-- The raw text between quotes. -/
def RawText.quoted (t : RawText) : Text :=
  let quote := if .char '\'' ∈ t ∧ .char '"' ∉ t then '"' else '\''
  quote :: t.flatMap (CodePoint.quoted quote) ++ [quote]

namespace Text

def quoted (t : Text) : Text :=
  RawText.quoted t

/-- A character as it stands in markup. -/
def markupChar : Char → Text
  | '&' => "&amp;"
  | '<' => "&lt;"
  | '>' => "&gt;"
  | '"' => "&#34;"
  | '\'' => "&#39;"
  | c => [c]

/-- The text as it stands in markup, in element content as well as between attribute quotes. -/
def markup (t : Text) : Text :=
  t.flatMap markupChar

end Text

end Pinout
