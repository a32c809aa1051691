import Pinout.Catalog

/-! # Commands and flags

The program has four commands. Flags of the program stand in front of the command and flags of the
command behind it.
-/

namespace Pinout.CommandLine

inductive Command where
  | info
  | usage
  | testbench
  | doc
  deriving DecidableEq, Repr

namespace Command

def all : List Command := [info, usage, testbench, doc]

def name : Command → Text
  | info => "info"
  | usage => "usage"
  | testbench => "testbench"
  | doc => "doc"

end Command

inductive Flag where
  | help
  | dialect
  | output
  | verbose
  | format
  | dark
  | description
  deriving DecidableEq, Repr

/-- What belongs to a flag. -/
inductive Flag.Takes where
  | nothing
  | anything
  | oneOf (choices : List Text)
  deriving DecidableEq, Repr

namespace Flag

/-- The names of a flag: a dash and a letter, or two dashes and a word. -/
def names : Flag → List Text
  | help => ["-h", "--help"]
  | dialect => ["--dialect"]
  | output => ["-o", "--output"]
  | verbose => ["-v", "--verbose"]
  | format => ["--format"]
  | dark => ["--dark"]
  | description => ["--description"]

def takes : Flag → Takes
  | help | verbose | dark => .nothing
  | output | description => .anything
  | dialect => .oneOf (Dialect.all.map Dialect.tag)
  | format => .oneOf (Format.all.map Format.tag)

end Flag

/-- Where flags are looked up: in front of the command, or behind a command. -/
inductive Scope where
  | program
  | command (command : Command)
  deriving DecidableEq, Repr

namespace Scope

def flags : Scope → List Flag
  | program => [.help, .dialect, .output, .verbose]
  | command .doc => [.help, .format, .dark, .description]
  | command _ => [.help]

/-- The flags of a scope under each of their names. -/
def namedFlags (s : Scope) : List (RawText × Flag) :=
  s.flags.flatMap fun flag => flag.names.map fun name => (Text.raw name, flag)

def flag? (s : Scope) (name : RawText) : Option Flag :=
  s.namedFlags.lookup name

end Scope

end Pinout.CommandLine
