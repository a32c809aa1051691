import Pinout.Proofs.Pattern.Halting
import Pinout.Vhdl.Declaration

/-! # Declarations in terms of readings

What is reported of a header depends on what the patterns read in it, and not on where they read it.
-/

namespace Pinout.Vhdl

def portRead (r : Reading) : Except UnknownDirection Port := do
  let direction ← Direction.ofKeyword (r.group 2)
  return {
    name := r.group 1
    direction
    dataType := r.group 3
    width := portWidth (r.group 3) (r.group? 5) }

def genericRead (r : Reading) : Generic where
  name := r.group 1
  dataType := some (r.group 2)
  width := (r.group? 3).map fun high =>
    high ++ " " ++ Text.toLower (r.group 4) ++ " " ++ r.group 5
  default := (r.group? 6).map Text.trim

theorem portRead_reading (found : Match) : portRead found.reading = portOf found := by
  simp only [portRead, Match.group_reading, Match.group?_reading]
  rfl

theorem portRead_range (text text' whole range : Text) (kept : List (Nat × Text)) :
    portRead ⟨text, (4, whole) :: (5, range) :: kept⟩ =
      (portRead ⟨text', kept⟩).map fun p => { p with width := portWidth p.dataType (some range) } := by
  have group : ∀ index, index = 1 ∨ index = 2 ∨ index = 3 →
      (⟨text, (4, whole) :: (5, range) :: kept⟩ : Reading).group index = (⟨text', kept⟩ : Reading).group index := by
    rintro index (rfl | rfl | rfl) <;> rfl
  have found : (⟨text, (4, whole) :: (5, range) :: kept⟩ : Reading).group? 5 = some range := rfl
  rw [portRead, portRead, group 1 (by decide), group 2 (by decide), group 3 (by decide), found]
  cases Direction.ofKeyword ((⟨text', kept⟩ : Reading).group 2) <;> rfl

theorem genericRead_reading (found : Match) : genericRead found.reading = genericOf found := by
  simp only [genericRead, Match.group_reading, Match.group?_reading]
  rfl

def signature (g : Generic) : Generic :=
  { g with default := none }

theorem portsOf_eq_scan (header : Text) : portsOf header = (portPattern.scan none header).mapM portRead := by
  rw [← Pattern.reading_findAll, List.mapM_map]
  exact congrArg (fun declare => List.mapM declare _) (funext portRead_reading).symm

def genericsIn (clause : Text) : List Generic :=
  (genericPattern.scan none clause).map genericRead

theorem genericsOf_eq (header : Text) : genericsOf header = ((genericClause? header).map genericsIn).getD [] := by
  rw [genericsOf]
  cases genericClause? header with
  | none => rfl
  | some clause =>
      rw [Option.map_some, Option.getD_some, genericsIn, ← Pattern.reading_findAll, List.map_map]
      exact congrArg (fun declare => List.map declare _) (funext genericRead_reading).symm

end Pinout.Vhdl
