import Pinout.Vhdl.Header

/-! # VHDL declarations

The ports and the generics of an entity, each found by a pattern of its own in the entity header.
-/

namespace Pinout.Vhdl

/-- A port; the groups are its name, its mode, its type, the parenthesised range and the range. -/
def portPattern : Pattern :=
  .group 1 .word ++ .blanks ++ .char ':' ++ .blanks ++
    .group 2 (.keyword "inout" <|> .keyword "in" <|> .keyword "out") ++ .gap ++
    .group 3 (.keyword "std_" ++ .optional (.keyword "u") ++ .keyword "logic" ++
      .optional (.keyword "_vector")) ++
    .boundary ++
    .optional (.group 4 (.blanks ++ .char '(' ++ .group 5 (.few (· != '\n')) ++ .char ')'))

/-- The generic clause; group 1 is what stands between its parentheses. -/
def genericBlockPattern : Pattern :=
  .boundary ++ .keyword "generic" ++ .blanks ++ .char '(' ++ .group 1 (.few fun _ => true) ++
    .exactly ");"

/-- Reads a bound of a range. -/
def bound : Pattern :=
  .atLeastOne fun c => !Text.isBlank c && c != '(' && c != ')'

/-- A generic; the groups are its name, its type, the first bound, the order of the range, the second
bound and the default. -/
def genericPattern : Pattern :=
  .group 1 .word ++ .blanks ++ .char ':' ++ .blanks ++ .group 2 .word ++
    .optional (.blanks ++ .char '(' ++ .blanks ++ .group 3 bound ++ .gap ++
      .group 4 (.keyword "downto" <|> .keyword "to") ++ .gap ++ .group 5 bound ++ .blanks ++
      .char ')') ++
    .optional (.blanks ++ .exactly ":=" ++ .blanks ++ .group 6 (.atLeastOne (· != ';')))

/-- The width of a port: scalar types are one bit, and a vector has the range that follows it. -/
def portWidth (logicType : Text) (range : Option Text) : Option Text :=
  if "_vector".toList <:+ Text.toLower logicType then
    match range with
    | some (c :: rest) => some (Text.trim (c :: rest))
    | _ => none
  else some scalarWidth

def portOf (found : Match) : Except UnknownDirection Port := do
  let direction ← Direction.ofKeyword (found.group 2)
  return {
    name := found.group 1
    direction
    dataType := found.group 3
    width := portWidth (found.group 3) (found.group? 5) }

def genericOf (found : Match) : Generic where
  name := found.group 1
  dataType := some (found.group 2)
  width := (found.group? 3).map fun high =>
    high ++ " " ++ Text.toLower (found.group 4) ++ " " ++ found.group 5
  default := (found.group? 6).map Text.trim

def portsOf (header : Text) : Except UnknownDirection (List Port) :=
  (portPattern.findAll header).mapM portOf

/-- What stands between the parentheses of the first generic clause in an entity header. -/
def genericClause? (header : Text) : Option Text :=
  (genericBlockPattern.search? header).map (·.group 1)

def genericsOf (header : Text) : List Generic :=
  match genericClause? header with
  | some clause => (genericPattern.findAll clause).map genericOf
  | none => []

def ports (source : Text) : Except UnknownDirection (List Port) :=
  portsOf (header source)

def generics (source : Text) : List Generic :=
  genericsOf (header source)

def interface (source : Text) : Except UnknownDirection Interface := do
  return { name := unitName source, ports := ← ports source, generics := generics source }

end Pinout.Vhdl
