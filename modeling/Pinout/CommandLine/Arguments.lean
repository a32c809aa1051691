import Pinout.CommandLine.Word

/-! # Reading arguments

Arguments are read from left to right. A flag takes effect where it stands, so a request for help is
answered before what follows it is looked at. In front of the command, the first operand takes all
further arguments with it; behind the command, one operand is the input file.

The mark behind which only operands follow is never a value. Attached to a flag in place of a value,
it leaves the flag empty: given, but without a value.
-/

namespace Pinout.CommandLine

/-- What is known of a flag once the arguments have been read. -/
inductive Setting (α : Type) where
  | unset
  /-- The flag was given without a value. -/
  | empty
  | value (a : α)
  deriving DecidableEq, Repr

namespace Setting

variable {α β : Type}

def value? : Setting α → Option α
  | value a => some a
  | unset | empty => none

/-- Reads the value. A value that means nothing leaves the flag unset. -/
def filterMap (f : α → Option β) : Setting α → Setting β
  | unset => unset
  | empty => empty
  | value a => (f a).elim unset value

/-- How a setting without a value is written. -/
def emptyText : Text := "[]"

end Setting

/-- Why reading ends early. -/
inductive Halt where
  | help (scope : Scope)
  | refused (scope : Scope) (refusal : Refusal)
  deriving DecidableEq, Repr

/-- What has been read so far. -/
structure Reading where
  /-- The flags with their values, latest first. A flag that stands alone or is empty has none. -/
  given : List (Flag × Option RawText) := []
  /-- The operand, with what it took along. -/
  operands : List RawText := []
  /-- The arguments that nothing takes. -/
  unrecognized : List RawText := []
  deriving DecidableEq, Repr

namespace Reading

def has (r : Reading) (flag : Flag) : Bool :=
  (r.given.lookup flag).isSome

/-- What the last mention of a flag says. -/
def setting (r : Reading) (flag : Flag) : Setting RawText :=
  match r.given.lookup flag with
  | none => .unset
  | some none => .empty
  | some (some value) => .value value

def leave (r : Reading) (argument : RawText) : Reading :=
  { r with unrecognized := r.unrecognized ++ [argument] }

def note (r : Reading) (flag : Flag) (value : Option RawText) : Reading :=
  { r with given := (flag, value) :: r.given }

/-- Lets a flag that stands alone take effect. -/
def give (scope : Scope) (r : Reading) (flag : Flag) : Except Halt Reading :=
  if flag = .help then .error (.help scope) else .ok (r.note flag none)

def giveAll (scope : Scope) : Reading → List Flag → Except Halt Reading
  | r, [] => .ok r
  | r, flag :: rest => do giveAll scope (← r.give scope flag) rest

/-- Lets a flag take effect with its value. The mark in place of the value leaves the flag empty. -/
def giveValue (scope : Scope) (r : Reading) (flag : Flag) (value : RawText) : Except Halt Reading :=
  if value = operandMark then .ok (r.note flag none)
  else match flag.takes with
    | .oneOf choices =>
      if value ∈ choices.map Text.raw then .ok (r.note flag (some value))
      else .error (.refused scope (.wrongValue flag value choices))
    | _ => .ok (r.note flag (some value))

end Reading

/-- How an argument that spells flags ends, behind the flags that stand alone. -/
inductive Ending where
  | nothing
  | valued (flag : Flag) (value : RawText)
  /-- A flag whose value must be the next argument. -/
  | awaiting (flag : Flag)
  deriving DecidableEq, Repr

/-- A flag that nothing is attached to. -/
def bare (flag : Flag) : List Flag × Ending :=
  if flag.takes = .nothing then ([flag], .nothing) else ([], .awaiting flag)

/-- Reads what is attached to a flag: its value, or further letters behind a letter that stands
alone. A letter that is no flag is taken for a value that the letter in front of it does not want. -/
def spread (scope : Scope) (flag : Flag) (isLong : Bool) :
    (attached : RawText) → Except Refusal (List Flag × Ending)
  | [] =>
    if flag.takes = .nothing then .error (.unwantedValue flag []) else .ok ([], .valued flag [])
  | c :: rest =>
    if flag.takes ≠ .nothing then .ok ([], .valued flag (c :: rest))
    else if isLong then .error (.unwantedValue flag (c :: rest))
    else match scope.flag? [.char '-', c] with
      | none => .error (.unwantedValue flag (c :: rest))
      | some next =>
        let further := if rest.isEmpty then .ok (bare next) else spread scope next false rest
        further.map fun (alone, ending) => (flag :: alone, ending)

/-- The flags that an argument spells. -/
def Spelling.spread (scope : Scope) (s : Spelling) : Except Refusal (List Flag × Ending) :=
  match s.attached with
  | none => .ok (bare s.flag)
  | some attached => CommandLine.spread scope s.flag s.isLong attached

namespace Scope

def read (scope : Scope) : List (RawText × Word) → Reading → Except Halt Reading
  | [], r => .ok r
  | (argument, .unknownFlag) :: rest, r => scope.read rest (r.leave argument)
  | (_, .flag spelling) :: rest, r =>
    match spelling.spread scope with
    | .error refusal => .error (.refused scope refusal)
    | .ok (alone, .nothing) => do scope.read rest (← r.giveAll scope alone)
    | .ok (alone, .valued flag value) => do
      scope.read rest (← (← r.giveAll scope alone).giveValue scope flag value)
    | .ok (alone, .awaiting flag) =>
      match rest with
      | (value, .operand) :: rest => do
        scope.read rest (← (← r.giveAll scope alone).giveValue scope flag value)
      | _ => .error (.refused scope (.missingValue flag))
  | (argument, .operand) :: rest, r =>
    if scope = .program then .ok { r with operands := argument :: rest.map (·.1) }
    else if r.operands.isEmpty then
      let r := { r with operands := [argument] }
      match rest with
      | (_, .mark) :: rest => scope.read rest r
      | rest => scope.read rest r
    else scope.read rest (r.leave argument)
  | (argument, .mark) :: rest, r =>
    match rest with
    | [] => .ok (r.leave argument)
    | (file, kind) :: rest =>
      if scope = .program then .ok { r with operands := argument :: file :: rest.map (·.1) }
      else if r.operands.isEmpty then scope.read rest { r with operands := [file] }
      else scope.read ((file, kind) :: rest) (r.leave argument)

/-- Tells the arguments of a scope apart and reads them. -/
def readAll (scope : Scope) (arguments : List RawText) : Except Halt Reading := do
  scope.read (← (scope.words arguments).mapError (.refused scope)) {}

end Scope

end Pinout.CommandLine
