import Pinout.CommandLine.Refusal
import Pinout.Text.Digit

/-! # Kinds of arguments

Before anything is read, each argument is told apart: a flag, an operand, or the mark behind which
only operands follow. A long flag may be cut short as long as one name begins with what is left of
it, and a value may be attached to a flag.
-/

namespace Pinout.CommandLine

/-- How an argument spells a flag. -/
structure Spelling where
  flag : Flag
  /-- Whether the flag was named by a word and not by a letter. -/
  isLong : Bool
  attached : Option RawText := none
  deriving DecidableEq, Repr

/-- The kind of an argument. -/
inductive Word where
  | operand
  | flag (spelling : Spelling)
  /-- Looks like a flag that the scope does not have. -/
  | unknownFlag
  /-- The mark behind which only operands follow. -/
  | mark
  deriving DecidableEq, Repr

/-- The mark behind which only operands follow. -/
def operandMark : RawText := "--"

def isLongName (name : RawText) : Bool :=
  operandMark.isPrefixOf name

/-- What stands in front of the first equals sign, and what stands behind it if there is one. -/
def splitAtEquals (argument : RawText) : RawText × Option RawText :=
  match argument.span (· != .char '=') with
  | (name, _ :: value) => (name, some value)
  | (name, []) => (name, none)

/-- Whether an argument with a dash in front is a value all the same: a number, or several words. -/
def looksLikeValue (argument : RawText) : Bool :=
  argument.plain?.any Text.isNegativeNumber || .char ' ' ∈ argument

namespace Scope

/-- The names that an argument may be a short form of, each with its spelling. -/
def candidates (s : Scope) (argument : RawText) : List (RawText × Spelling) :=
  if isLongName argument then
    let (name, value) := splitAtEquals argument
    s.namedFlags.filterMap fun (full, flag) =>
      if name.isPrefixOf full then some (full, ⟨flag, true, value⟩) else none
  else
    s.namedFlags.filterMap fun (full, flag) =>
      if full = argument.take 2 then some (full, ⟨flag, false, some (argument.drop 2)⟩) else none

/-- The flag that an argument names in full, alone or in front of an equals sign. -/
def spelledOut? (s : Scope) (argument : RawText) : Option Spelling :=
  match s.flag? argument with
  | some flag => some ⟨flag, isLongName argument, none⟩
  | none =>
    match splitAtEquals argument with
    | (name, some value) => (s.flag? name).map fun flag => ⟨flag, isLongName name, some value⟩
    | (_, none) => none

/-- The kind of an argument in front of the mark. -/
def word (s : Scope) (argument : RawText) : Except Refusal Word :=
  if argument.head? ≠ some (.char '-') then .ok .operand
  else match s.spelledOut? argument with
    | some spelling => .ok (.flag spelling)
    | none =>
      if argument = [.char '-'] then .ok .operand
      else match s.candidates argument with
        | [(_, spelling)] => .ok (.flag spelling)
        | [] => .ok (if looksLikeValue argument then .operand else .unknownFlag)
        | several => .error (.ambiguous argument (several.map (·.1)))

def words (s : Scope) : List RawText → Except Refusal (List (RawText × Word))
  | [] => .ok []
  | argument :: rest =>
    if argument = operandMark then .ok ((argument, .mark) :: rest.map (·, .operand))
    else do
      let word ← s.word argument
      return (argument, word) :: (← s.words rest)

end Scope

end Pinout.CommandLine
