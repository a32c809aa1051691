import Pinout.Vhdl.Declaration

/-! # VHDL components and instances

A component repeats the declarations of an entity, each type with its range, and an instance binds its
generics and ports by name.
-/

namespace Pinout.Vhdl

/-- The keyword of a direction. -/
def modeKeyword : Direction → Text
  | .input => "in"
  | .output => "out"
  | .inout => "inout"

def ranged (dataType range : Text) : Text :=
  dataType ++ "(" ++ range ++ ")"

/-- The type of a port. The range is left out for a single bit and where it is missing or empty. -/
def portSubtype (p : Port) : Text :=
  match p.width with
  | some (c :: rest) => if p.isScalar then p.dataType else ranged p.dataType (c :: rest)
  | _ => p.dataType

/-- The type of a generic. A missing type is empty alone and `None` in front of a range. -/
def genericSubtype (g : Generic) : Text :=
  match g.width with
  | some (c :: rest) => ranged (g.dataType.getD "None") (c :: rest)
  | _ => textOrEmpty g.dataType

/-- The literal that sets every bit of a port. -/
def aggregate (p : Port) (bit : Text) : Text :=
  let literal := "'" ++ bit ++ "'"
  if p.isScalar then literal else "(others => " ++ literal ++ ")"

def association (formal actual : Text) : Text :=
  "    " ++ formal ++ " => " ++ actual

/-- An instance that begins with `head`. `values` pairs generics with actual texts; without any, the
generic map is left out. Without ports, the port map is kept only if it is required. -/
def instantiation (head : Text) (ports : List Port) (values : List (Text × Text))
    (requirePortMap : Bool) : Text :=
  let withPorts := !ports.isEmpty || requirePortMap
  let genericMap : List Text :=
    if values.isEmpty then []
    else List.flatten
      [["  generic map ("],
       Text.punctuate "," (values.map fun (formal, actual) => association formal actual),
       [if withPorts then "  )" else "  );"]]
  let portMap : List Text :=
    if withPorts then List.flatten
      [["  port map ("], Text.punctuate "," (ports.map fun p => association p.name p.name),
       ["  );"]]
    else []
  let head := if values.isEmpty && !withPorts then head ++ ";" else head
  Text.joinLines (head :: genericMap ++ portMap)

theorem map_association (values : List (Text × Text)) :
    (values.map fun (formal, actual) => association formal actual) =
      values.map fun v => association v.1 v.2 := rfl

def genericDeclaration (g : Generic) : Text :=
  "    " ++ g.name ++ " : " ++ genericSubtype g ++
    match g.default with
    | some value => " := " ++ value
    | none => []

def portDeclaration (p : Port) : Text :=
  "    " ++ p.name ++ " : " ++ modeKeyword p.direction ++ " " ++ portSubtype p

/-- A clause of a component, or nothing where there is nothing to declare. -/
def declarationClause (opening : Text) (declarations : List Text) : List Text :=
  if declarations.isEmpty then []
  else List.flatten [[opening], Text.punctuate ";" declarations, ["  );"]]

def component (unit : Interface) : Text :=
  Text.joinLines <| List.flatten
    [["component " ++ unit.name ++ " is"],
     declarationClause "  generic (" (unit.generics.map genericDeclaration),
     declarationClause "  port (" (unit.ports.map portDeclaration),
     ["end component;"]]

/-- What a generic without a value is bound to. -/
def valuePlaceholder : Text := "/* Your value here */"

/-- An instance of an entity, with every generic bound to its default or to a placeholder. -/
def usageOf (unit : Interface) : Text :=
  instantiation (unit.name ++ "_instance : entity work." ++ unit.name) unit.ports
    (unit.generics.map fun g => (g.name, textOr valuePlaceholder g.default)) true

def usage (source : Text) : Except UnknownDirection Text := do
  return usageOf (← interface source)

end Pinout.Vhdl
