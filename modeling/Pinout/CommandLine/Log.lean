import Pinout.Design

/-! # Log lines

What a verbose run reports: how much source there was, what each scan found, and which file was
written.
-/

namespace Pinout.CommandLine

inductive Event where
  /-- A source of so many characters is about to be read. -/
  | opened (dialect : Dialect) (characters : Nat)
  | portsFound (dialect : Dialect) (count : Nat)
  | genericsFound (dialect : Dialect) (count : Nat)
  | wrote (path : RawText)
  deriving DecidableEq, Repr

namespace Event

def genericNoun : Dialect → Text
  | .verilog => "parameter"
  | .vhdl => "generic"

/-- A line on what the scans of a dialect found. -/
def found (dialect : Dialect) (count : Nat) (noun : Text) : Text :=
  "DEBUG hdllang.parsers." ++ dialect.tag ++ ": " ++ dialect.tag ++ ": " ++ Text.ofNat count ++ " " ++
    noun ++ "(s) found"

def line : Event → RawText
  | opened dialect characters =>
    Text.raw <| "DEBUG hdllang.factory: creating " ++ dialect.tag ++ " parser for " ++ Text.ofNat characters ++
      " characters of source"
  | portsFound dialect count => found dialect count "port"
  | genericsFound dialect count => found dialect count (genericNoun dialect)
  | wrote path => "INFO hdldoc: wrote " ++ path

end Event

/-- A pass over the source. -/
inductive Scan where
  | ports
  | generics
  deriving DecidableEq, Repr

/-- What a scan for parameters reports. Without a generic clause there is nothing to report. -/
def genericEvents (d : Design) : List Event :=
  match d.dialect with
  | .verilog => [.genericsFound d.dialect d.generics.length]
  | .vhdl =>
    if (Vhdl.genericClause? (Vhdl.header d.source)).isSome then
      [.genericsFound d.dialect d.generics.length]
    else []

/-- What scans of a design report, up to the first that fails. -/
def scanEvents (d : Design) : List Scan → List Event
  | [] => []
  | .generics :: rest => genericEvents d ++ scanEvents d rest
  | .ports :: rest =>
    match d.ports with
    | .ok ports => .portsFound d.dialect ports.length :: scanEvents d rest
    | .error _ => []

def interfaceScans : List Scan := [.ports, .generics]

def usageScans : Dialect → List Scan
  | .verilog => [.generics, .ports]
  | .vhdl => interfaceScans

def testbenchScans : Dialect → List Scan
  | .verilog => interfaceScans ++ [.ports]
  | .vhdl => interfaceScans

def pageScans (dialect : Dialect) : List Scan :=
  interfaceScans ++ usageScans dialect ++ testbenchScans dialect

end Pinout.CommandLine
