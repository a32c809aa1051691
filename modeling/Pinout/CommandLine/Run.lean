import Pinout.CommandLine.FileTree
import Pinout.CommandLine.Help
import Pinout.CommandLine.Invocation
import Pinout.CommandLine.Log
import Pinout.Diagram.Svg
import Pinout.Interface.Json
import Pinout.Page
import Pinout.Text.Lines

/-! # Running the program

A run is planned first: the input file is read and the result is generated, without any effect.
Then the result is printed, or delivered to the output file. Nothing else is ever written.

A delivery opens the output file, which empties it, before the result is encoded and stored. So a
delivery that fails then leaves an empty file, or one with a beginning of the result.
-/

namespace Pinout.CommandLine

/-- An error that ends the program. -/
inductive Crash where
  | direction (e : UnknownDirection)
  /-- The flag for the format of a document was left empty. -/
  | emptyFormat
  | path (e : PathFault)
  | encoding (e : EncodingFault)
  | storage (e : StorageFault)
  deriving DecidableEq, Repr

def Crash.message : Crash → Text
  | direction e => e.message
  | emptyFormat => "unhashable type: 'list'"
  | path e => e.message
  | encoding e => e.message
  | storage e => e.message

/-- How the program ends. -/
inductive Exit where
  | code (code : Nat)
  | crash (crash : Crash)
  deriving DecidableEq, Repr

/-- What a run shows to its caller. -/
structure Outcome where
  exit : Exit
  stdout : RawText := []
  stderr : RawText := []
  deriving DecidableEq, Repr

/-- Why a task cannot be started. -/
inductive Obstacle where
  /-- The name of the input file is empty. -/
  | noFile
  | notFound (file : RawText)
  | unknownExtension (file : RawText)
  | unknownDialect (e : UnsupportedDialect)
  deriving DecidableEq, Repr

def Obstacle.message : Obstacle → RawText
  | noFile => "Error: No file provided."
  | notFound file => "Error: File not found: " ++ file
  | unknownExtension file =>
    "Error: Cannot infer HDL dialect from '" ++ file ++ "'; use --dialect."
  | unknownDialect e => Text.raw ("Error: " ++ e.message)

/-- The file extensions with their dialects. -/
def extensionDialects : List (Text × Dialect) :=
  [(".v", .verilog), (".vh", .verilog), (".sv", .verilog), (".vhd", .vhdl), (".vhdl", .vhdl)]

def baseName (path : RawText) : RawText :=
  (path.reverse.takeWhile (· != .char '/')).reverse

/-- The extension of a file name with its dot. The dots that a name begins with start none. -/
def extension (path : RawText) : RawText :=
  let stem := (baseName path).dropWhile (· == .char '.')
  if .char '.' ∈ stem then .char '.' :: (stem.reverse.takeWhile (· != .char '.')).reverse else []

/-- The dialect that the name of a file tells. -/
def dialectOfFile? (path : RawText) : Option Dialect := do
  extensionDialects.lookup (Text.toLower (← (extension path).plain?))

def sourceText (contents : List UInt8) : Text :=
  Text.unifyNewlines (Text.ofUtf8 contents)

def Task.dialect (t : Task) : Setting Dialect → Except Obstacle Dialect
  | .value dialect => .ok dialect
  | .empty => .error (.unknownDialect ⟨Setting.emptyText⟩)
  | .unset =>
    match dialectOfFile? t.file with
    | some dialect => .ok dialect
    | none => .error (.unknownExtension t.file)

def Task.design (t : Task) (dialect : Setting Dialect) (read : RawText → Option (List UInt8)) :
    Except Obstacle Design :=
  if t.file.isEmpty then .error .noFile
  else match read t.file with
    | none => .error (.notFound t.file)
    | some contents => do return { dialect := ← t.dialect dialect, source := sourceText contents }

/-- The result of a task. Only a description may hold surrogates. -/
def Task.result (t : Task) (d : Design) : Except Crash RawText :=
  let answer : Except UnknownDirection RawText → Except Crash RawText := Except.mapError .direction
  match t.command, t.format with
  | .info, _ => answer (d.interface.map fun unit => unit.json)
  | .usage, _ => answer (d.usage.map Text.raw)
  | .testbench, _ => answer (d.testbench.map Text.raw)
  | .doc, some .svg => answer ((d.diagram t.dark).map Text.raw)
  | .doc, some .markdown => answer (d.rawPage t.description none)
  | .doc, none => .error .emptyFormat

def Task.scans (t : Task) (dialect : Dialect) : List Scan :=
  match t.command, t.format with
  | .info, _ => interfaceScans
  | .usage, _ => usageScans dialect
  | .testbench, _ => testbenchScans dialect
  | .doc, some .svg => [.ports]
  | .doc, some .markdown => pageScans dialect
  | .doc, none => []

/-- The lines that report events, if a log is kept. -/
def log (verbose : Bool) (events : List Event) : RawText :=
  if verbose then events.flatMap fun event => event.line ++ "\n" else []

/-- The text with exactly one line feed at its end. -/
def printed (t : RawText) : RawText :=
  Text.dropRightWhile (· == .char '\n') t ++ "\n"

/-- The text with at least one line feed at its end. -/
def filed (t : RawText) : RawText :=
  if t.getLast? = some (.char '\n') then t else t ++ "\n"

/-- A result on its way to a file. -/
structure Delivery where
  path : RawText
  text : RawText
  /-- What is logged once the text is written. -/
  receipt : RawText
  deriving DecidableEq, Repr

/-- What a run will do. -/
structure Plan where
  /-- What the run shows, but for the delivery. -/
  outcome : Outcome
  delivery : Option Delivery := none
  deriving DecidableEq, Repr

namespace Plan

def stop (code : Nat) (stdout stderr : RawText) : Plan where
  outcome := { exit := .code code, stdout, stderr }

/-- Prints a result or sends it to the output file. An empty output path counts as none. -/
def deliver (i : Invocation) (stderr result : RawText) : Plan :=
  match i.output with
  | some (c :: path) =>
    { outcome := { exit := .code 0, stderr }
      delivery := some {
        path := c :: path, text := filed result, receipt := log i.verbose [.wrote (c :: path)] } }
  | _ => stop 0 (printed result) stderr

/-- The plan for an invocation. `read` gives the contents of the files that are there. -/
def ofInvocation (read : RawText → Option (List UInt8)) (i : Invocation) : Plan :=
  match i.task with
  | none => stop 1 Scope.program.help []
  | some task =>
    match task.design i.dialect read with
    | .error obstacle => stop 1 [] (obstacle.message ++ "\n")
    | .ok design =>
      let events := .opened design.dialect design.source.length ::
        scanEvents design (task.scans design.dialect)
      let stderr := log i.verbose events
      match task.result design with
      | .error crash => { outcome := { exit := .crash crash, stderr } }
      | .ok result => deliver i stderr result

def ofArguments (read : RawText → Option (List UInt8)) (arguments : List RawText) : Plan :=
  match Invocation.ofArguments arguments with
  | .ok invocation => ofInvocation read invocation
  | .error (.help scope) => stop 0 scope.help []
  | .error (.refused scope refusal) => stop 2 [] (scope.complaint refusal.message)

end Plan

/-- What is left of a delivery. -/
structure Emission where
  tree : FileTree
  crash? : Option Crash := none
  stdout : RawText := []
  stderr : RawText := []
  deriving DecidableEq, Repr

/-- Writes a text to what has been opened. -/
def FileTree.write (tree : FileTree) (stream : Stream) (t : RawText) : Emission :=
  match t.utf8 with
  | .error e => { tree, crash? := some (.encoding e) }
  | .ok bytes =>
    match stream with
    | .file location => { tree := tree.store location bytes, crash? := (tree.shortfall? bytes).map .storage }
    | .device .sink => { tree }
    | .device .full => { tree, crash? := some (.storage .noSpace) }
    | .device .output => { tree, stdout := t }
    | .device .errors => { tree, stderr := t }

/-- Opens the output file and writes the result to it. -/
def FileTree.emit (tree : FileTree) (delivery : Delivery) : Emission :=
  match tree.openForWriting delivery.path with
  | .error e => { tree, crash? := some (.path e) }
  | .ok (stream, opened) => opened.write stream delivery.text

/-- What a run shows once its result is delivered. Only a delivery that succeeds is logged. -/
def Outcome.after (outcome : Outcome) (receipt : RawText) (emission : Emission) : Outcome where
  exit := emission.crash?.elim outcome.exit .crash
  stdout := outcome.stdout ++ emission.stdout
  stderr := outcome.stderr ++ emission.stderr ++ if emission.crash?.isNone then receipt else []

/-- Runs the program on the files of a working directory. -/
def run (tree : FileTree) (arguments : List RawText) : Outcome × FileTree :=
  let plan := Plan.ofArguments tree.read? arguments
  match plan.delivery with
  | none => (plan.outcome, tree)
  | some delivery =>
    let emission := tree.emit delivery
    (plan.outcome.after delivery.receipt emission, emission.tree)

/-- Runs the program several times, each time on the files that the runs before have left. Each
outcome comes with the files that its run changed. -/
def runAll : FileTree → List (List RawText) → List (Outcome × List (RawText × List UInt8))
  | _, [] => []
  | tree, arguments :: rest =>
    let (outcome, after) := run tree arguments
    (outcome, after.changesSince tree) :: runAll after rest

end Pinout.CommandLine
