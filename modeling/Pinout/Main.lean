import Pinout.CommandLine.Run

/-! # The command line program

Reads the input file, follows the plan of the run, and carries out its one effect.
-/

namespace Pinout.CommandLine

/-- The contents of a regular file. -/
def contentsOf (path : RawText) : IO (Option (List UInt8)) := do
  match path.plain? with
  | none => return none
  | some path =>
    try
      return some (← IO.FS.readBinFile (String.ofList path)).toList
    catch _ =>
      return none

/-- The contents of the files that an invocation may read. -/
def inputOf (arguments : List RawText) : IO (RawText → Option (List UInt8)) := do
  match Invocation.ofArguments arguments with
  | .ok { task := some task, .. } =>
    let contents ← contentsOf task.file
    return fun path => if path = task.file then contents else none
  | _ => return fun _ => none

/-- Writes a text to a stream, its surrogates as the bytes that they stand for. -/
def display (stream : IO.FS.Stream) (t : RawText) : IO Unit := do
  match t.systemBytes with
  | .ok bytes => stream.write ⟨bytes.toArray⟩
  | .error e => throw (IO.userError (String.ofList e.message))

/-- Shows an outcome and gives its exit code. -/
def finish (outcome : Outcome) : IO UInt32 := do
  display (← IO.getStdout) outcome.stdout
  display (← IO.getStderr) outcome.stderr
  match outcome.exit with
  | .code code => return code.toUInt32
  | .crash crash =>
    IO.eprintln (String.ofList crash.message)
    return 1

/-- Opens the output file, writes the result to it, and gives the error that stops this. -/
def deliver (delivery : Delivery) : IO (Option Crash) := do
  let handle ← IO.FS.Handle.mk (String.ofList (delivery.path.plain?.getD [])) .write
  match delivery.text.utf8 with
  | .error e => return some (.encoding e)
  | .ok bytes =>
    handle.write ⟨bytes.toArray⟩
    return none

/-- Runs the program on the real files and gives its exit code. -/
def execute (arguments : List String) : IO UInt32 := do
  let arguments := arguments.map fun argument => Text.raw argument.toList
  let plan := Plan.ofArguments (← inputOf arguments) arguments
  match plan.delivery with
  | none => finish plan.outcome
  | some delivery =>
    let crash? ← deliver delivery
    finish (plan.outcome.after delivery.receipt { tree := {}, crash? })

end Pinout.CommandLine

/-- Runs the program on the arguments of the process. -/
def main (arguments : List String) : IO UInt32 :=
  Pinout.CommandLine.execute arguments
