import Pinout.CommandLine.Arguments

/-! # Invocations

What a list of arguments asks for.
-/

namespace Pinout.CommandLine

/-- A command with its input file and its settings. -/
structure Task where
  command : Command
  file : RawText
  /-- The format of a document, unless its flag was left empty. -/
  format : Option Format := some .markdown
  dark : Bool := false
  description : Option RawText := none
  deriving DecidableEq, Repr

/-- What the program is asked to do. -/
structure Invocation where
  /-- The dialect. Unset, it follows from the name of the input file. -/
  dialect : Setting Dialect := .unset
  output : Option RawText := none
  verbose : Bool := false
  /-- The task, unless no command was given. -/
  task : Option Task := none
  deriving DecidableEq, Repr

/-- The task that the arguments behind a command ask for, and the arguments that nothing takes. -/
def Task.ofArguments (command : Command) (arguments : List RawText) :
    Except Halt (Task × List RawText) := do
  let scope := Scope.command command
  let r ← scope.readAll arguments
  match r.operands with
  | [] => .error (.refused scope .missingFile)
  | file :: _ =>
    let format := match (r.setting .format).filterMap fun tag => Format.all.find? (Text.raw ·.tag = tag) with
      | .unset => some .markdown
      | .empty => none
      | .value format => some format
    return ({ command, file, format, dark := r.has .dark,
              description := (r.setting .description).value? }, r.unrecognized)

/-- The invocation that a list of arguments spells. -/
def Invocation.ofArguments (arguments : List RawText) : Except Halt Invocation := do
  let scope := Scope.program
  let r ← scope.readAll arguments
  let (task, unrecognized) ← match r.operands with
    | [] => .ok (none, r.unrecognized)
    | word :: rest =>
      match Command.all.find? (Text.raw ·.name = word) with
      | none => .error (.refused scope (.wrongCommand word))
      | some command => do
        let (task, unrecognized) ← Task.ofArguments command rest
        .ok (some task, r.unrecognized ++ unrecognized)
  if unrecognized.isEmpty then
    return {
      dialect := (r.setting .dialect).filterMap fun tag => Dialect.all.find? (Text.raw ·.tag = tag)
      output := (r.setting .output).value?
      verbose := r.has .verbose
      task }
  else .error (.refused scope (.unrecognized unrecognized))

end Pinout.CommandLine
