import Pinout.Text.Basic

/-! # Lines

A text falls into lines at every kind of line break, a carriage return with its line feed being one
break. Indenting moves every line but the first to the right.
-/

namespace Pinout.Text

/-- Whether a character alone ends a line. -/
def isLineBreak (c : Char) : Bool :=
  c ∈ ['\n', '\x0b', '\x0c', '\r', '\x1c', '\x1d', '\x1e', '\u0085', '\u2028', '\u2029']

/-- The lines of a text. A break at the end opens no further line. -/
def lines : Text → List Text
  | [] => []
  | '\r' :: '\n' :: rest => [] :: lines rest
  | c :: rest =>
    if isLineBreak c then [] :: lines rest
    else match lines rest with
      | [] => [[c]]
      | line :: more => (c :: line) :: more

/-- Moves a line to the right, unless it is empty. -/
def indentLine (margin : Text) (line : Text) : Text :=
  if line.isEmpty then [] else margin ++ line

/-- Moves every line but the first to the right and ends each with a line feed but the last. -/
def indentRest (margin : Text) (t : Text) : Text :=
  match lines (t ++ ['\n']) with
  | [] => []
  | line :: more => joinLines (line :: more.map (indentLine margin))

/-- Every line break written as a carriage return, alone or before a line feed, becomes a line feed. -/
def unifyNewlines : Text → Text
  | [] => []
  | '\r' :: '\n' :: rest => '\n' :: unifyNewlines rest
  | c :: rest => (if c = '\r' then '\n' else c) :: unifyNewlines rest

end Pinout.Text
