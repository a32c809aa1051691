import Pinout.Vhdl.Header

/-! # Context clauses

The libraries and packages that a source asks for, each listed where it first occurs.
-/

namespace Pinout.Vhdl

def libraryPattern : Pattern :=
  .boundary ++ .keyword "library" ++ .gap ++ .group 1 .word ++ .blanks ++ .char ';'

/-- A use clause; group 1 is the selected name. -/
def usePattern : Pattern :=
  .boundary ++ .keyword "use" ++ .gap ++
    .group 1 (.atLeastOne fun c => Text.isWord c || c == '.') ++ .blanks ++ .char ';'

/-- The context of a design unit. -/
structure Context where
  libraries : List Text := []
  packages : List Text := []
  deriving DecidableEq, Repr

/-- Whether a context asks for nothing. -/
def Context.isEmpty (c : Context) : Bool :=
  c.libraries.isEmpty && c.packages.isEmpty

/-- What a pattern keeps under number 1 in a text, each once and where it first occurs. -/
def firstOccurrences (p : Pattern) (code : Text) : List Text :=
  ((p.findAll code).map (·.group 1)).eraseDups

def context (source : Text) : Context where
  libraries := firstOccurrences libraryPattern (stripComments source)
  packages := firstOccurrences usePattern (stripComments source)

end Pinout.Vhdl
