import Pinout.Interface.Basic
import Pinout.Text.Json

/-! # Interfaces as JSON

The interface of a unit as one JSON object, written over several lines.
-/

namespace Pinout

open Text

def Port.json (column : Nat) (p : Port) : Text :=
  Json.object column
    [("name", Json.string p.name), ("direction", Json.string p.direction.name),
     ("data_type", Json.string p.dataType), ("width", Json.string? p.width)]

def Generic.json (column : Nat) (g : Generic) : Text :=
  Json.object column
    [("name", Json.string g.name), ("data_type", Json.string? g.dataType),
     ("width", Json.string? g.width), ("default", Json.string? g.default)]

def Interface.json (i : Interface) : Text :=
  Json.object 0
    [("name", Json.string i.name),
     ("ports", Json.array 2 (i.ports.map (Port.json 4))),
     ("generics", Json.array 2 (i.generics.map (Generic.json 4)))]

end Pinout
