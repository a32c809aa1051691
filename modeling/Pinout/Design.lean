import Pinout.Dialect
import Pinout.Verilog.Testbench
import Pinout.Vhdl.Testbench

/-! # Designs

A design is a source text in a dialect. Every question about it is answered by reading the text
anew; the answers in a dialect of their own are in the folders of the dialects.
-/

namespace Pinout

/-- A source text in a dialect. -/
structure Design where
  dialect : Dialect
  source : Text
  deriving DecidableEq, Repr

/-- What a service that describes designs in words is given. -/
structure DescriptionRequest where
  sourceText : Text
  dialect : Text
  generics : List Generic
  deriving DecidableEq, Repr

namespace Design

/-- The design that a tag and a source text make. -/
def ofTag (tag source : Text) : Except UnsupportedDialect Design := do
  return { dialect := ← Dialect.ofTag tag, source }

def unitName (d : Design) : Text :=
  match d.dialect with
  | .verilog => Verilog.unitName d.source
  | .vhdl => Vhdl.unitName d.source

def ports (d : Design) : Except UnknownDirection (List Port) :=
  match d.dialect with
  | .verilog => Verilog.ports d.source
  | .vhdl => Vhdl.ports d.source

def generics (d : Design) : List Generic :=
  match d.dialect with
  | .verilog => Verilog.generics d.source
  | .vhdl => Vhdl.generics d.source

/-- The name, the ports and the parameters together. -/
def interface (d : Design) : Except UnknownDirection Interface := do
  return { name := d.unitName, ports := ← d.ports, generics := d.generics }

/-- The request for a description of the design. -/
def descriptionRequest (d : Design) : Except UnknownDirection DescriptionRequest := do
  return { sourceText := d.source, dialect := d.dialect.tag, generics := (← d.interface).generics }

def usage (d : Design) : Except UnknownDirection Text :=
  match d.dialect with
  | .verilog => Verilog.usage d.source
  | .vhdl => Vhdl.usage d.source

def testbench (d : Design) : Except UnknownDirection Text :=
  match d.dialect with
  | .verilog => Verilog.testbench d.source
  | .vhdl => Vhdl.testbench d.source

/-- The name of the design's parser with the name of the unit. -/
def summary (d : Design) : Text :=
  d.dialect.parserName ++ "(module=" ++ Text.quoted d.unitName ++ ")"

end Design

end Pinout
