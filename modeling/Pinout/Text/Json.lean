import Pinout.Text.Quoted

/-! # JSON text

Strings are written in ASCII, and arrays and objects over several lines, two columns further in at
each level.
-/

namespace Pinout.Text.Json

/-- A code point as one escape, or as two beyond the basic plane. -/
def unicodeEscape (code : Nat) : Text :=
  if code < 0x10000 then "\\u" ++ hexDigits 4 code
  else
    "\\u" ++ hexDigits 4 (0xD800 + (code - 0x10000) / 0x400) ++
      "\\u" ++ hexDigits 4 (0xDC00 + (code - 0x10000) % 0x400)

/-- A character as it stands in a JSON string. -/
def stringChar : Char → Text
  | '"' => "\\\""
  | '\\' => "\\\\"
  | '\n' => "\\n"
  | '\r' => "\\r"
  | '\t' => "\\t"
  | '\x08' => "\\b"
  | '\x0c' => "\\f"
  | c => if 0x20 ≤ c.toNat && c.toNat < 0x7F then [c] else unicodeEscape c.toNat

def string (t : Text) : Text :=
  "\"" ++ t.flatMap stringChar ++ "\""

def string? : Option Text → Text
  | some t => string t
  | none => "null"

/-- Items between brackets, each on a line of its own, in a value that starts at column `column`. -/
def block (opening closing : Char) (column : Nat) (items : List Text) : Text :=
  if items.isEmpty then [opening, closing]
  else
    let margin := List.replicate column ' '
    joinLines ([opening] :: punctuate "," (items.map (margin ++ "  " ++ ·)) ++ [margin ++ [closing]])

/-- A JSON array whose opening bracket stands on a line indented to `column`. -/
def array (column : Nat) (items : List Text) : Text :=
  block '[' ']' column items

def object (column : Nat) (fields : List (Text × Text)) : Text :=
  block '\x7b' '\x7d' column (fields.map fun (name, value) => string name ++ ": " ++ value)

end Pinout.Text.Json
