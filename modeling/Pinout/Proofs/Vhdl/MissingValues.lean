import Pinout.Proofs.Pattern.Names
import Pinout.Proofs.Vhdl.Extracted
import Pinout.Vhdl.Testbench

/-! # Generics without a value

An instance binds a generic without a value to a placeholder, and a testbench declares no constant for it, notes it
and leaves it unbound. A default of blanks only is where the two disagree: the instance takes it for a missing one,
and the testbench declares a constant with nothing behind its mark.
-/

namespace Pinout.Vhdl

open Pattern (Stops)

variable {before : Option Char} {s x clause source : Text} {kept : List (Nat × Text)} {unit : Interface} {g : Generic}

/-- What becomes of a generic in the texts that are written for an entity. -/
structure Treatment where
  generic : Generic
  /-- What an instance binds it to. -/
  actual : Text
  /-- The value of the constant that a testbench declares for it, if there is one. -/
  constant : Option Text

/-- A generic has no constant and is bound to the placeholder, or it has a constant and is bound to its value. -/
def Treatment.Agrees (t : Treatment) : Prop :=
  match t.constant with
  | none => t.actual = valuePlaceholder
  | some value => value ≠ [] ∧ t.actual = value

instance (t : Treatment) : Decidable t.Agrees := by
  unfold Treatment.Agrees
  split <;> infer_instance

def declaredConstant (g : Generic) (value : Text) : Text :=
  "  constant " ++ g.name ++ " : " ++ genericSubtype g ++ " := " ++ value ++ ";"

/-- The lines of a testbench about the generics: the constants, and below them a note for each generic without one. -/
def treatmentLines (treatments : List Treatment) : List Text :=
  treatments.filterMap (fun t => t.constant.map (declaredConstant t.generic)) ++
    (treatments.filter (·.constant.isNone)).map fun t => missingValueLine t.generic

def boundConstants (treatments : List Treatment) : List (Text × Text) :=
  (treatments.filter (·.constant.isSome)).map fun t => (t.generic.name, t.generic.name)

def usageWith (unit : Interface) (treatments : List Treatment) : Text :=
  instantiation (unit.name ++ "_instance : entity work." ++ unit.name) unit.ports
    (treatments.map fun t => (t.generic.name, t.actual)) true

def testbenchWith (context : Context) (unit : Interface) (treatments : List Treatment) : Text :=
  Text.document
    [contextLines context,
     ["entity " ++ unit.name ++ "_tb is", "end " ++ unit.name ++ "_tb;", "",
      "architecture Behavioral of " ++ unit.name ++ "_tb is", "",
      "  " ++ Text.indentRest "  " (component unit)],
     Text.section? [""] (treatmentLines treatments),
     Text.section? [""] (unit.ports.map signalLine),
     ["", "begin", "",
      "  " ++ Text.indentRest "  "
        (instantiation ("uut: " ++ unit.name) unit.ports (boundConstants treatments) false), "",
      "  stim_proc: process", "  begin", "    -- Initialization"],
     unit.inputs.map (assignment · "0"),
     [waitLine settleTime],
     pulse unit.inputs,
     ["    wait;", "  end process;", "", "end Behavioral;"]]

/-- The treatment that a generic is given: an empty default counts as missing in an instance only. -/
def treated (g : Generic) : Treatment where
  generic := g
  actual := textOr valuePlaceholder g.default
  constant := g.default

theorem usageOf_eq_usageWith (unit : Interface) : usageOf unit = usageWith unit (unit.generics.map treated) := by
  rw [usageWith, List.map_map]
  rfl

theorem treatmentLines_map_treated (generics : List Generic) :
    treatmentLines (generics.map treated) =
      generics.filterMap constantLine ++ (generics.filter (·.default.isNone)).map missingValueLine := by
  rw [treatmentLines, List.filterMap_map, List.filter_map, List.map_map]
  rfl

theorem boundConstants_map_treated (generics : List Generic) :
    boundConstants (generics.map treated) =
      (generics.filter (·.default.isSome)).map fun g => (g.name, g.name) := by
  rw [boundConstants, List.filter_map, List.map_map]
  rfl

theorem testbenchOf_eq_testbenchWith (context : Context) (unit : Interface) :
    testbenchOf context unit = testbenchWith context unit (unit.generics.map treated) := by
  rw [testbenchWith, treatmentLines_map_treated, boundConstants_map_treated]
  rfl

theorem agrees_treated_iff : (treated g).Agrees ↔ g.default ≠ some [] := by
  rw [Treatment.Agrees, treated]
  cases g.default with
  | none => exact ⟨fun _ => nofun, fun _ => rfl⟩
  | some value =>
      cases value with
      | nil => simp
      | cons c rest => simp [textOr]

/-- Somewhere in the clause there is nothing but blanks, at least one, between a mark of a default and the end of the
declaration. -/
def HasBlankDefault (clause : Text) : Prop :=
  ∃ front blank rest, clause = front ++ (":=".toList ++ (blank ++ rest)) ∧ blank ≠ [] ∧
    (∀ c ∈ blank, Text.isBlank c = true) ∧ Stops (· != ';') rest

theorem blank_of_trim_eq_nil (h : Text.trim x = []) : ∀ c ∈ x, Text.isBlank c = true := by
  obtain ⟨g, h', blank, blank', split⟩ := Text.exists_trim x
  rw [h, List.nil_append] at split
  rw [split]
  exact List.forall_mem_append.mpr ⟨blank, blank'⟩

theorem exists_default_of_takes (h : genericPattern.Takes before x kept s) {value : Text}
    (default : (⟨x, kept⟩ : Reading).group? 6 = some value) :
    ∃ front blank, x = front ++ (":=".toList ++ (blank ++ value)) ∧ value ≠ [] ∧
      (∀ c ∈ blank, Text.isBlank c = true) ∧ Stops (· != ';') s := by
  obtain ⟨first, y, more, rfl, rfl, declared, tail⟩ := h.exists_append
  -- Only the last part of the pattern keeps a default.
  rw [Reading.group?, List.lookup_append, Pattern.lookup_eq_none_of_groupBodies rfl declared, Option.or_none] at default
  rcases tail.of_optional with tail | rfl
  · obtain ⟨marked, v, inner, rfl, rfl, marking, valued⟩ := tail.exists_append
    obtain ⟨_, run, rfl⟩ := valued.of_group
    obtain rfl : v = value := by simpa using default
    obtain ⟨opening, hopening, _, -, blank, hblank, rfl⟩ := Pattern.exists_of_mem_append marking
    obtain ⟨lead, -, _, -, mark, hmark, rfl⟩ := Pattern.exists_of_mem_append hopening
    obtain rfl := Pattern.mem_exactly hmark
    exact ⟨first.text ++ lead.text, blank.text, by simp [Reading.append], (Pattern.mem_atLeastOne run.mem).1,
      (Pattern.mem_many.mp hblank).2.1, Pattern.stops_of_takes_atLeastOne run⟩
  · rcases List.mem_append.mp tail.mem with read | nothing
    · exact absurd rfl (Pattern.ne_nil_of_mem rfl read)
    · obtain ⟨-, rfl⟩ := Reading.mk.inj (List.mem_singleton.mp nothing)
      cases default

/-- An empty default is what is left of a blank one. -/
theorem hasBlankDefault_of_mem {found : Match} (h : found ∈ genericPattern.findAll clause)
    (empty : (genericOf found).default = some []) : HasBlankDefault clause := by
  obtain ⟨value, kept, trimmed⟩ := Option.map_eq_some_iff.mp empty
  rw [← Match.group?_reading] at kept
  have scanned := List.mem_map_of_mem (f := Match.reading) h
  rw [Pattern.reading_findAll] at scanned
  obtain ⟨u, s, split, takes⟩ := Pattern.exists_place_of_mem_scan rfl scanned
  obtain ⟨front, blank, text, nonempty, blanks, stops⟩ := exists_default_of_takes takes kept
  refine ⟨u ++ front, blank ++ value, s, ?_, by simp [nonempty], ?_, stops⟩
  · rw [split, text]
    simp only [List.append_assoc]
  · exact List.forall_mem_append.mpr ⟨blanks, blank_of_trim_eq_nil trimmed⟩

theorem exists_blank_clause (h : g ∈ generics source) (empty : g.default = some []) :
    ∃ clause, genericClause? (header source) = some clause ∧ HasBlankDefault clause := by
  rw [generics, genericsOf] at h
  split at h
  · rename_i clause opened
    obtain ⟨found, hfound, rfl⟩ := List.mem_map.mp h
    exact ⟨clause, opened, hasBlankDefault_of_mem hfound empty⟩
  · cases h

/-- The instance and the testbench agree on a generic exactly if its default is not an empty one, and an empty one
comes of a blank default in the source only. -/
theorem treated_alike_iff (read : interface source = .ok unit) :
    ∃ treatments : List Treatment, treatments.map Treatment.generic = unit.generics ∧
      usage source = .ok (usageWith unit treatments) ∧
      testbench source = .ok (testbenchWith (context source) unit treatments) ∧
      (∀ t ∈ treatments, t.Agrees ↔ t.generic.default ≠ some []) ∧
      ((∃ t ∈ treatments, ¬ t.Agrees) →
        ∃ clause, genericClause? (header source) = some clause ∧ HasBlankDefault clause) := by
  have generics : unit.generics = generics source := by
    obtain ⟨ports, -, made⟩ := Extraction.exists_of_bind_eq_ok read
    cases made
    rfl
  have agree : ∀ t ∈ unit.generics.map treated, t.Agrees ↔ t.generic.default ≠ some [] := by
    intro t ht
    obtain ⟨g, -, rfl⟩ := List.mem_map.mp ht
    exact agrees_treated_iff
  refine ⟨unit.generics.map treated, ?_, ?_, ?_, agree, ?_⟩
  · rw [List.map_map]
    exact List.map_id _
  · rw [usage, read, ← usageOf_eq_usageWith]
    rfl
  · rw [testbench, read, ← testbenchOf_eq_testbenchWith]
    rfl
  · rintro ⟨t, ht, differs⟩
    have empty := not_not.mp ((not_congr (agree t ht)).mp differs)
    obtain ⟨g, hg, rfl⟩ := List.mem_map.mp ht
    exact exists_blank_clause (generics ▸ hg) empty

/-- An entity with a generic that has no default, one that has a default and one that has a blank one. -/
def mixedDefaults : Text :=
  "entity e is generic ( w : integer; g : integer := ; h : integer := 1 ); end e;"

def mixedUnit : Interface where
  name := "e"
  generics := [
    { name := "w", dataType := some "integer".toList },
    { name := "g", dataType := some "integer".toList, default := some [] },
    { name := "h", dataType := some "integer".toList, default := some "1".toList }]

theorem interface_mixedDefaults : interface mixedDefaults = .ok mixedUnit := by
  decide +kernel

theorem treated_alike_iff_mixedDefaults :
    interface mixedDefaults = .ok mixedUnit ∧
      ∃ treatments : List Treatment, treatments.map Treatment.generic = mixedUnit.generics ∧
        usage mixedDefaults = .ok (usageWith mixedUnit treatments) ∧
        testbench mixedDefaults = .ok (testbenchWith (context mixedDefaults) mixedUnit treatments) ∧
        treatments.map (fun t => decide t.Agrees) = [true, false, true] := by
  obtain ⟨treatments, generics, used, tested, agree, -⟩ := treated_alike_iff interface_mixedDefaults
  refine ⟨interface_mixedDefaults, treatments, generics, used, tested, ?_⟩
  have decided : treatments.map (fun t => decide t.Agrees) =
      (treatments.map Treatment.generic).map fun g => decide (g.default ≠ some []) := by
    rw [List.map_map]
    exact List.map_congr_left fun t ht => decide_eq_decide.mpr (agree t ht)
  rw [decided, generics]
  decide

/-- The blank default leaves the generic at the placeholder in the instance, and the testbench declares a constant
without a value for it. -/
theorem treated_mixedDefaults :
    ∃ used tested, usage mixedDefaults = .ok used ∧ testbench mixedDefaults = .ok tested ∧
      "    g => /* Your value here */,".toList ∈ used.splitOn '\n' ∧
      "  constant g : integer := ;".toList ∈ tested.splitOn '\n' := by
  refine ⟨usageOf mixedUnit, testbenchOf (context mixedDefaults) mixedUnit, ?_, ?_, ?_, ?_⟩
  · rw [usage, interface_mixedDefaults]
    rfl
  · rw [testbench, interface_mixedDefaults]
    rfl
  · decide +kernel
  · decide +kernel

end Pinout.Vhdl
