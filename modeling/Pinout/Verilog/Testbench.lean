import Pinout.Text.Lines
import Pinout.Verilog.Instance

/-! # Verilog testbenches

A testbench repeats the parameters of a module, declares a signal for each port, instantiates the
module, clears its inputs and pulses the first one.
-/

namespace Pinout.Verilog

/-- The declaration of a parameter in a testbench. -/
def parameterLine (g : Generic) : Text :=
  "  parameter " ++ g.name ++ " = " ++ textOrEmpty g.default ++ ";"

/-- What kind of signal a port is connected to. -/
def signalKind (p : Port) : Text :=
  if p.isInput then "reg" else "wire"

def signalRange (p : Port) : Text :=
  if p.isScalar then [] else " [" ++ textOrEmpty p.width ++ "]"

/-- The declaration of the signal that drives or watches a port. -/
def signalLine (p : Port) : Text :=
  "  " ++ signalKind p ++ signalRange p ++ " " ++ p.name ++ ";"

def assignment (p : Port) (digit : Text) : Text :=
  "    " ++ p.name ++ " = " ++ digit ++ ";"

def delay (time : Text) : Text :=
  "    #" ++ time ++ ";"

/-- Pulses the first of the inputs, if there is one. -/
def pulse : List Port → List Text
  | [] => []
  | first :: _ =>
    ["", "    // Pulse the first input", assignment first "1", delay pulseTime, assignment first "0"]

/-- The testbench of a module. -/
def testbenchOf (unit : Interface) : Text :=
  let uut := instantiation unit.name "uut" (unit.generics.map fun g => (g.name, g.name)) unit.ports
  Text.document
    [["`timescale 1ns / 1ps", "", "module " ++ unit.name ++ "_tb;"],
     Text.section? ["", "  // Parameters"] (unit.generics.map parameterLine),
     Text.section? ["", "  // Inputs and outputs"] (unit.ports.map signalLine),
     ["", "  // Instantiate the Unit Under Test (UUT)", "  " ++ Text.indentRest "  " uut, "",
      "  initial begin", "    // Initialize Inputs"],
     unit.inputs.map (assignment · "0"),
     ["", "    // Wait " ++ settleTime ++ " ns for global reset to finish", delay settleTime],
     pulse unit.inputs,
     ["  end", "", "endmodule"]]

def testbench (source : Text) : Except UnknownDirection Text := do
  return testbenchOf (← interface source)

end Pinout.Verilog
