import Pinout.Interface.Direction

/-! # Interfaces of design units

The interface of a design unit is its name, its ports and its generics, in source order. Widths and
defaults are kept as source text and never evaluated. The testbenches of both dialects wait for the same
times, in nanoseconds.
-/

namespace Pinout

/-- The width of a port that is a single bit. -/
def scalarWidth : Text := "1"

/-- A declared signal of a design unit. -/
structure Port where
  name : Text
  direction : Direction
  dataType : Text
  /-- The range as written, the scalar width, or nothing for a vector without a range. -/
  width : Option Text := some scalarWidth
  deriving DecidableEq, Repr

/-- A compile-time parameter of a design unit. -/
structure Generic where
  name : Text
  dataType : Option Text := none
  /-- The range of the type as written. -/
  width : Option Text := none
  default : Option Text := none
  deriving DecidableEq, Repr

/-- The name of a unit whose header was not found. -/
def unknownUnit : Text := "Unknown"

/-- What the outside sees of a design unit. -/
structure Interface where
  name : Text := unknownUnit
  ports : List Port := []
  generics : List Generic := []
  deriving DecidableEq, Repr

namespace Port

def isInput (p : Port) : Bool :=
  p.direction = .input

def isScalar (p : Port) : Bool :=
  p.width = some scalarWidth

/-- A port as a pin: its name and which way its signal goes. -/
def pin (p : Port) : Text × Direction :=
  (p.name, p.direction)

end Port

def Interface.inputs (i : Interface) : List Port :=
  i.ports.filter Port.isInput

/-- A text that may be missing, the missing one being empty. -/
def textOrEmpty (t : Option Text) : Text :=
  t.getD []

/-- A text unless it is missing or empty, and `otherwise` in its place. -/
def textOr (otherwise : Text) : Option Text → Text
  | some (c :: rest) => c :: rest
  | _ => otherwise

/-- How long a testbench waits for the reset to settle. -/
def settleTime : Text := "100"

/-- How long a testbench holds a pulse. -/
def pulseTime : Text := "10"

end Pinout
