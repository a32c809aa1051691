import Pinout.Text.Lines
import Pinout.Vhdl.Context
import Pinout.Vhdl.Instance

/-! # VHDL testbenches

A testbench repeats the context of an entity, declares it as a component with a constant for each
generic that has a default and a signal for each port, instantiates it, clears its inputs and pulses
the first one.
-/

namespace Pinout.Vhdl

/-- The library and use clauses of a context, and an empty line below them if there are any. -/
def contextLines (c : Context) : List Text :=
  List.flatten
    [c.libraries.map fun library => "library " ++ library ++ ";",
     c.packages.map fun package => "use " ++ package ++ ";",
     if c.isEmpty then [] else [""]]

/-- The constant that stands for a generic with a default. -/
def constantLine (g : Generic) : Option Text :=
  g.default.map fun value =>
    "  constant " ++ g.name ++ " : " ++ genericSubtype g ++ " := " ++ value ++ ";"

/-- A note on a generic without a default. -/
def missingValueLine (g : Generic) : Text :=
  "  -- TODO: no default for generic " ++ g.name ++ "; add it to the generic map"

/-- The declaration of the signal that drives or watches a port. -/
def signalLine (p : Port) : Text :=
  "  signal " ++ p.name ++ " : " ++ portSubtype p ++ ";"

def assignment (p : Port) (bit : Text) : Text :=
  "    " ++ p.name ++ " <= " ++ aggregate p bit ++ ";"

def waitLine (time : Text) : Text :=
  "    wait for " ++ time ++ " ns;"

/-- Pulses the first of the inputs, if there is one. -/
def pulse : List Port → List Text
  | [] => []
  | first :: _ =>
    ["", "    -- Pulse the first input", assignment first "1", waitLine pulseTime,
     assignment first "0"]

/-- The instance under test. Generics with a default are bound to their constants. -/
def unitUnderTest (unit : Interface) : Text :=
  let constants := unit.generics.filter (·.default.isSome)
  instantiation ("uut: " ++ unit.name) unit.ports (constants.map fun g => (g.name, g.name)) false

/-- The testbench of an entity. -/
def testbenchOf (context : Context) (unit : Interface) : Text :=
  Text.document
    [contextLines context,
     ["entity " ++ unit.name ++ "_tb is", "end " ++ unit.name ++ "_tb;", "",
      "architecture Behavioral of " ++ unit.name ++ "_tb is", "",
      "  " ++ Text.indentRest "  " (component unit)],
     Text.section? [""] (unit.generics.filterMap constantLine ++
       (unit.generics.filter (·.default.isNone)).map missingValueLine),
     Text.section? [""] (unit.ports.map signalLine),
     ["", "begin", "", "  " ++ Text.indentRest "  " (unitUnderTest unit), "",
      "  stim_proc: process", "  begin", "    -- Initialization"],
     unit.inputs.map (assignment · "0"),
     [waitLine settleTime],
     pulse unit.inputs,
     ["    wait;", "  end process;", "", "end Behavioral;"]]

def testbench (source : Text) : Except UnknownDirection Text := do
  return testbenchOf (context source) (← interface source)

end Pinout.Vhdl
