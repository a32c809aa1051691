import Pinout.Proofs.Extraction
import Pinout.Proofs.Pattern.Halting
import Pinout.Proofs.Pattern.WholeWord
import Pinout.Verilog.Declaration

/-! # Declarations in terms of readings

What is reported of a source depends on what its patterns read in the text without comments, and not on
where they read it.
-/

namespace Pinout.Verilog

def portRead (r : Reading) : Except UnknownDirection Port := do
  let direction ← Direction.ofKeyword (r.group 1)
  return {
    name := r.group 4
    direction
    dataType := ((r.group? 2).map Text.toLower).getD defaultNetType
    width := some (((r.group? 3).map Text.trim).getD scalarWidth) }

def parameterRead (r : Reading) : Generic where
  name := r.group 1
  default := some (trimValue (r.group 2))

theorem portRead_reading (found : Match) : portRead found.reading = portOf found := by
  simp only [portRead, Match.group_reading, Match.group?_reading]
  rfl

theorem parameterRead_reading (found : Match) : parameterRead found.reading = genericOf found := by
  simp only [parameterRead, Match.group_reading]
  rfl

theorem ports_eq_scan (source : Text) : ports source = (portPattern.scan none (stripComments source)).mapM portRead := by
  rw [← Pattern.reading_findAll, List.mapM_map]
  exact congrArg (fun declare => List.mapM declare _) (funext portRead_reading).symm

theorem generics_eq_scan (source : Text) :
    generics source = (parameterPattern.scan none (stripComments source)).map parameterRead := by
  rw [← Pattern.reading_findAll, List.map_map]
  exact congrArg (fun declare => List.map declare _) (funext parameterRead_reading).symm

theorem unitName_eq_scan (source : Text) :
    unitName source = ((modulePattern.scan none (stripComments source)).head?.map (·.group 1)).getD unknownUnit := by
  rw [← Pattern.map_reading_search? rfl, Option.map_map, unitName]
  cases modulePattern.search? (stripComments source) with
  | none => rfl
  | some found => exact (Match.group_reading found 1).symm

theorem modulePattern_ledBy : modulePattern.LedBy (.exactly "module") :=
  Pattern.ledBy_gap (Pattern.readsWords_exactly (by decide) (by decide)) (.group 1 .word) fun before t => by
    simp only [modulePattern, Pattern.readings_append_assoc]

def pinRead (r : Reading) : Except UnknownDirection (Text × Direction) := do
  return (r.group 4, ← Direction.ofKeyword (r.group 1))

theorem map_pin_portRead (r : Reading) : (portRead r).map Port.pin = pinRead r := by
  rw [portRead, pinRead]
  cases Direction.ofKeyword (r.group 1) <;> rfl

theorem pins_eq_scan (source : Text) :
    (ports source).map (List.map Port.pin) = (portPattern.scan none (stripComments source)).mapM pinRead := by
  rw [ports_eq_scan, Extraction.map_mapM, funext map_pin_portRead]

end Pinout.Verilog
