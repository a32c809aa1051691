import Pinout.CommandLine.Flag

/-! # Refusals

Why a list of arguments is turned down.
-/

namespace Pinout.CommandLine

inductive Refusal where
  /-- The argument may stand for several flags. -/
  | ambiguous (argument : RawText) (names : List RawText)
  | missingValue (flag : Flag)
  /-- A flag that stands alone was given a value. -/
  | unwantedValue (flag : Flag) (value : RawText)
  | wrongValue (flag : Flag) (value : RawText) (choices : List Text)
  | wrongCommand (word : RawText)
  | missingFile
  | unrecognized (arguments : List RawText)
  deriving DecidableEq, Repr

namespace Refusal

/-- A complaint about the argument called `subject`. -/
def about (subject complaint : Text) : Text :=
  "argument " ++ subject ++ ": " ++ complaint

/-- A complaint about a value that is not among the choices. -/
def choice (value : RawText) (choices : List Text) : Text :=
  "invalid choice: " ++ RawText.quoted value ++ " (choose from " ++
    Text.joinWith ", " (choices.map Text.quoted) ++ ")"

def subject (flag : Flag) : Text :=
  Text.joinWith "/" flag.names

def message : Refusal → RawText
  | ambiguous argument names =>
    "ambiguous option: " ++ argument ++ " could match " ++ RawText.joinWith ", " names
  | missingValue flag => about (subject flag) "expected one argument"
  | unwantedValue flag value =>
    about (subject flag) ("ignored explicit argument " ++ RawText.quoted value)
  | wrongValue flag value choices => about (subject flag) (choice value choices)
  | wrongCommand word => about "command" (choice word (Command.all.map Command.name))
  | missingFile => "the following arguments are required: FILE"
  | unrecognized arguments => "unrecognized arguments: " ++ RawText.joinWith " " arguments

end Refusal

end Pinout.CommandLine
