import Pinout.Verilog.Declaration

/-! # Verilog instances

An instance binds the parameters and ports of a module by name.
-/

namespace Pinout.Verilog

def binding (formal actual : Text) : Text :=
  "  ." ++ formal ++ "(" ++ actual ++ ")"

/-- An instance of a module. `overrides` pairs parameters with their values; without any, the
parameter block is left out. -/
def instantiation (unit label : Text) (overrides : List (Text × Text)) (ports : List Port) : Text :=
  let opening : List Text :=
    if overrides.isEmpty then [unit ++ " " ++ label ++ " ("]
    else List.flatten
      [[unit ++ " #("],
       Text.punctuate "," (overrides.map fun (formal, actual) => binding formal actual),
       [") " ++ label ++ " ("]]
  Text.joinLines <| List.flatten
    [opening, Text.punctuate "," (ports.map fun p => binding p.name p.name), [");"]]

theorem map_binding (overrides : List (Text × Text)) :
    (overrides.map fun (formal, actual) => binding formal actual) =
      overrides.map fun o => binding o.1 o.2 := rfl

def usage (source : Text) : Except UnknownDirection Text := do
  let overrides := (generics source).map fun g => (g.name, textOrEmpty g.default)
  return instantiation (unitName source) "instance_name" overrides (← ports source)

end Pinout.Verilog
