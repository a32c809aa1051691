import Pinout.Text.Classes
import Pinout.Text.LowerCase
import Pinout.Text.Quoted

/-! # Port directions

Both languages share three directions. A record names a direction exactly; source text may also use
the short keywords, in any case.
-/

namespace Pinout

/-- Which way a signal goes through a port. -/
inductive Direction where
  | input
  | output
  | inout
  deriving DecidableEq, Repr

/-- A word that names no direction. -/
structure UnknownDirection where
  word : Text
  deriving DecidableEq, Repr

def UnknownDirection.message (e : UnknownDirection) : Text :=
  Text.quoted e.word ++ " is not a valid Direction"

namespace Direction

def name : Direction → Text
  | input => "input"
  | output => "output"
  | inout => "inout"

def ofName (word : Text) : Except UnknownDirection Direction :=
  if word = "input".toList then .ok input
  else if word = "output".toList then .ok output
  else if word = "inout".toList then .ok inout
  else .error ⟨word⟩

@[simp] theorem ofName_name (d : Direction) : ofName d.name = .ok d := by
  cases d <;> rfl

/-- The direction a source keyword stands for. Case and surrounding blanks do not count. -/
def ofKeyword (keyword : Text) : Except UnknownDirection Direction :=
  let word := Text.toLower (Text.trim keyword)
  if word = "in".toList then .ok input
  else if word = "out".toList then .ok output
  else ofName word

end Direction

end Pinout
