import Pinout.Design
import Pinout.Proofs.Verilog.Told
import Pinout.Proofs.Vhdl.Extracted

/-! # Instances as statements

An instance is one statement, whether or not there are parameters and ports: its last line ends with a semicolon,
and neither the lines in front of it nor what they quote of the source hold another one.
-/

namespace Pinout

open Text

variable {t head label name : Text} {lines : List Text} {values : List (Text × Text)} {ports : List Port}
  {unit : Interface}

namespace Text

/-- One statement: its only semicolon is its last character. -/
structure IsStatement (t : Text) : Prop where
  once : t.count ';' = 1
  last : t.getLast? = some ';'

theorem isStatement_ended (plain : ';' ∉ t) : IsStatement (t ++ [';']) where
  once := by
    rw [List.count_append, List.count_eq_zero_of_not_mem plain]
    rfl
  last := List.getLast?_concat

/-- Joined lines are one statement if a semicolon ends the last of them and there is no other. -/
theorem isStatement_joinLines (plain : ∀ l ∈ lines, ';' ∉ l) (last : ';' ∉ t) :
    IsStatement (joinLines (lines ++ [t ++ [';']])) := by
  rw [joinLines_append_singleton, ← List.append_assoc]
  refine isStatement_ended fun h => ?_
  rcases List.mem_append.mp h with inside | behind
  · obtain ⟨l, hl, inside⟩ := List.mem_flatMap.mp inside
    rcases List.mem_append.mp inside with inside | feed
    · exact plain l hl inside
    · exact absurd feed (by decide)
  · exact last behind

theorem infix_document {sections : List (List Text)} (h : t ∈ sections.flatten) : t ++ ['\n'] <:+: document sections := by
  rw [document, List.flatMap_def]
  exact List.infix_of_mem_flatten (List.mem_map_of_mem h)

theorem not_mem_punctuate {c : Char} {mark : Text} (marked : c ∉ mark) (plain : ∀ l ∈ lines, c ∉ l) :
    ∀ l ∈ punctuate mark lines, c ∉ l := by
  intro l hl
  obtain ⟨part, hpart, same⟩ := mem_punctuate hl
  rcases same with rfl | rfl
  · exact plain l hpart
  · exact List.not_mem_append (plain part hpart) marked

end Text

/-- The bindings of an instance without a semicolon in them. -/
def Unended (values : List (Text × Text)) : Prop :=
  ∀ v ∈ values, ';' ∉ v.1 ∧ ';' ∉ v.2

theorem unended_map {α : Type} {items : List α} {bind : α → Text × Text}
    (h : ∀ item ∈ items, ';' ∉ (bind item).1 ∧ ';' ∉ (bind item).2) : Unended (items.map bind) :=
  List.forall_mem_map.mpr h

namespace Verilog

theorem binding_unended {formal actual : Text} (h : ';' ∉ formal) (h' : ';' ∉ actual) : ';' ∉ binding formal actual :=
  List.not_mem_append (List.not_mem_append (List.not_mem_append (List.not_mem_append (by decide) h) (by decide)) h')
    (by decide)

theorem bindings_unended (bound : Unended values) : ∀ l ∈ bindings values, ';' ∉ l :=
  not_mem_punctuate (by decide) (List.forall_mem_map.mpr fun v hv => binding_unended (bound v hv).1 (bound v hv).2)

theorem isStatement_instantiation (named : ';' ∉ name) (labelled : ';' ∉ label) (bound : Unended values)
    (pins : ∀ p ∈ ports, ';' ∉ p.name) : IsStatement (instantiation name label values ports) := by
  have signals : ∀ l ∈ bindings (portPairs ports), ';' ∉ l :=
    bindings_unended (unended_map fun p hp => ⟨pins p hp, pins p hp⟩)
  have opening : ∀ l ∈ headLines name label values, ';' ∉ l := by
    unfold headLines
    split
    · simp [named, labelled]
    · simp only [List.forall_mem_cons, List.forall_mem_append]
      exact ⟨by simp [named], bindings_unended bound, by simp [middleLine, labelled]⟩
  have closing : ");".toList = ")".toList ++ [';'] := rfl
  rw [instantiation_eq, closing, ← List.append_assoc]
  exact isStatement_joinLines (List.forall_mem_append.mpr ⟨opening, signals⟩) (by decide : ';' ∉ ")".toList)

end Verilog

namespace Vhdl

theorem association_unended {formal actual : Text} (h : ';' ∉ formal) (h' : ';' ∉ actual) :
    ';' ∉ association formal actual :=
  List.not_mem_append (List.not_mem_append (List.not_mem_append (by decide) h) (by decide)) h'

/-- The lines of a map up to the parenthesis that closes it. -/
def openMap (kind : Text) (values : List (Text × Text)) : List Text :=
  ("  ".toList ++ kind ++ " map (".toList) :: punctuate "," (values.map fun v => association v.1 v.2)

theorem openMap_unended {kind : Text} (plain : ';' ∉ kind) (bound : Unended values) : ∀ l ∈ openMap kind values, ';' ∉ l := by
  unfold openMap
  rw [List.forall_mem_cons]
  exact ⟨by simp [plain], not_mem_punctuate (by decide)
    (List.forall_mem_map.mpr fun v hv => association_unended (bound v hv).1 (bound v hv).2)⟩

theorem isStatement_instantiation (begun : ';' ∉ head) (bound : Unended values) (pins : ∀ p ∈ ports, ';' ∉ p.name)
    (requirePortMap : Bool) : IsStatement (instantiation head ports values requirePortMap) := by
  have signals : ∀ l ∈ openMap "port" (ports.map fun p => (p.name, p.name)), ';' ∉ l :=
    openMap_unended (by decide) (unended_map fun p hp => ⟨pins p hp, pins p hp⟩)
  have constants : ∀ l ∈ openMap "generic" values, ';' ∉ l := openMap_unended (by decide) bound
  have closed : ';' ∉ "  )".toList := by decide
  have headed : ∀ l ∈ [head], ';' ∉ l := List.forall_mem_singleton.mpr begun
  unfold instantiation
  rw [map_association]
  cases !ports.isEmpty || requirePortMap with
  | true =>
      -- The port map ends the instance, and a generic map is closed in front of it.
      cases values with
      | nil =>
          have ended := isStatement_joinLines (List.forall_mem_append.mpr ⟨headed, signals⟩) closed
          simpa [openMap, Function.comp_def] using ended
      | cons v values =>
          have generics : ∀ l ∈ openMap "generic" (v :: values) ++ ["  )".toList], ';' ∉ l :=
            List.forall_mem_append.mpr ⟨constants, List.forall_mem_singleton.mpr closed⟩
          have ended := isStatement_joinLines (List.forall_mem_append.mpr
            ⟨List.forall_mem_append.mpr ⟨headed, generics⟩, signals⟩) closed
          simpa [openMap, Function.comp_def] using ended
  | false =>
      cases values with
      | nil =>
          have ended : IsStatement (joinLines ([] ++ [head ++ [';']])) := isStatement_joinLines nofun begun
          simpa using ended
      | cons v values =>
          have ended := isStatement_joinLines (List.forall_mem_append.mpr ⟨headed, constants⟩) closed
          simpa [openMap] using ended

end Vhdl

/-- What an instance quotes of a unit holds no semicolon. -/
structure Interface.NeverEnds (unit : Interface) : Prop where
  name : ';' ∉ unit.name
  ports : ∀ p ∈ unit.ports, ';' ∉ p.name
  generics : ∀ g ∈ unit.generics, ';' ∉ g.name
  defaults : ∀ g ∈ unit.generics, ∀ v ∈ g.default, ';' ∉ v

theorem Interface.NeverEnds.constants {P : Generic → Bool} (h : unit.NeverEnds) :
    Unended ((unit.generics.filter P).map fun g => (g.name, g.name)) :=
  unended_map fun g hg => ⟨h.generics g (List.mem_of_mem_filter hg), h.generics g (List.mem_of_mem_filter hg)⟩

namespace Design

variable {d : Design} {used : Text}

def underTest (d : Design) (unit : Interface) : Text :=
  match d.dialect with
  | .verilog => Verilog.instantiation unit.name "uut" (unit.generics.map fun g => (g.name, g.name)) unit.ports
  | .vhdl => Vhdl.unitUnderTest unit

theorem neverEnds (read : d.interface = .ok unit) : unit.NeverEnds := by
  obtain ⟨dialect, source⟩ := d
  cases dialect with
  | verilog =>
      have known := Verilog.extractedFrom_interface read
      refine ⟨known.name.not_mem (by decide), fun p hp => (known.ports p hp).1.not_mem (by decide),
        fun g hg => (known.generics g hg).1.not_mem (by decide), fun g hg v hv inside => ?_⟩
      obtain ⟨-, v', same, value⟩ := known.generics g hg
      rw [same] at hv
      cases hv
      exact (value.unbroken _ inside).2.1 rfl
  | vhdl =>
      have known := Vhdl.extractedFrom_interface read
      exact ⟨known.name.not_mem (by decide), fun p hp => (known.ports p hp).name.not_mem (by decide),
        fun g hg => (known.generics g hg).name.not_mem (by decide),
        fun g hg v hv => ((known.generics g hg).default v hv).unbroken⟩

theorem exists_interface_of_usage (h : d.usage = .ok used) : ∃ unit, d.interface = .ok unit := by
  obtain ⟨dialect, source⟩ := d
  cases dialect with
  | verilog => exact Verilog.exists_interface_of_usage h
  | vhdl =>
      obtain ⟨unit, read, -⟩ := Extraction.exists_of_bind_eq_ok h
      exact ⟨unit, read⟩

theorem isStatement_usage (read : d.interface = .ok unit) (h : d.usage = .ok used) : IsStatement used := by
  have ⟨name, ports, generics, defaults⟩ := neverEnds read
  obtain ⟨dialect, source⟩ := d
  cases dialect with
  | verilog =>
      obtain rfl := Except.ok.inj ((Verilog.usage_eq read).symm.trans h)
      refine Verilog.isStatement_instantiation name (by decide) (unended_map fun g hg => ⟨generics g hg, ?_⟩) ports
      cases default : g.default with
      | none => exact List.not_mem_nil
      | some v => exact defaults g hg v default
  | vhdl =>
      obtain ⟨unit', read', made⟩ := Extraction.exists_of_bind_eq_ok h
      obtain rfl := Except.ok.inj (read'.symm.trans read)
      cases made
      refine Vhdl.isStatement_instantiation (by simp [name]) (unended_map fun g hg => ⟨generics g hg, ?_⟩) ports true
      cases default : g.default with
      | none => exact (by decide : ';' ∉ Vhdl.valuePlaceholder)
      | some v =>
          cases v with
          | nil => exact (by decide : ';' ∉ Vhdl.valuePlaceholder)
          | cons c rest => exact defaults g hg _ default

theorem isStatement_underTest (read : d.interface = .ok unit) : IsStatement (d.underTest unit) := by
  have quoted := neverEnds read
  obtain ⟨dialect, source⟩ := d
  cases dialect with
  | verilog =>
      exact Verilog.isStatement_instantiation quoted.name (by decide)
        (unended_map fun g hg => ⟨quoted.generics g hg, quoted.generics g hg⟩) quoted.ports
  | vhdl => exact Vhdl.isStatement_instantiation (by simp [quoted.name]) quoted.constants quoted.ports false

/-- A testbench holds its instance, moved to the right, on lines of its own. -/
theorem exists_underTest {tested : Text} (h : d.testbench = .ok tested) : ∃ unit, d.interface = .ok unit ∧
    "  ".toList ++ indentRest "  " (d.underTest unit) ++ ['\n'] <:+: tested := by
  obtain ⟨dialect, source⟩ := d
  cases dialect with
  | verilog =>
      obtain ⟨unit, read⟩ := Verilog.exists_interface_of_testbench h
      obtain rfl := Except.ok.inj ((Verilog.testbench_eq read).symm.trans h)
      exact ⟨unit, read, infix_document (List.mem_flatten.mpr
        ⟨_, .tail _ (.tail _ (.tail _ (.head _))), .tail _ (.tail _ (.head _))⟩)⟩
  | vhdl =>
      obtain ⟨unit, read, made⟩ := Extraction.exists_of_bind_eq_ok h
      cases made
      exact ⟨unit, read, infix_document (List.mem_flatten.mpr
        ⟨_, .tail _ (.tail _ (.tail _ (.tail _ (.head _)))), .tail _ (.tail _ (.tail _ (.head _)))⟩)⟩

/-- Whatever the source is, the instance of a design is one statement, and so is the one that its testbench holds. No
default ends it early. -/
theorem instances_isStatement (d : Design) :
    (∀ used, d.usage = .ok used → IsStatement used) ∧
      (∀ tested, d.testbench = .ok tested → ∃ unit, d.interface = .ok unit ∧
        "  ".toList ++ indentRest "  " (d.underTest unit) ++ ['\n'] <:+: tested ∧ IsStatement (d.underTest unit)) ∧
      ∀ unit, d.interface = .ok unit → ∀ g ∈ unit.generics, ∀ v ∈ g.default, ';' ∉ v := by
  refine ⟨fun used h => ?_, fun tested h => ?_, fun unit read => (neverEnds read).defaults⟩
  · obtain ⟨unit, read⟩ := exists_interface_of_usage h
    exact isStatement_usage read h
  · obtain ⟨unit, read, inside⟩ := exists_underTest h
    exact ⟨unit, read, inside, isStatement_underTest read⟩

end Design

/-- An entity without ports, with a generic that has a default and one that has none. -/
def portlessEntity : Design where
  dialect := .vhdl
  source := "entity e is generic ( w : integer := 8; d : integer ); end e;"

def portlessUnit : Interface where
  name := "e"
  generics := [
    { name := "w", dataType := some "integer".toList, default := some "8".toList },
    { name := "d", dataType := some "integer".toList }]

theorem interface_portlessEntity : portlessEntity.interface = .ok portlessUnit := by
  decide +kernel

/-- The empty port map ends the instance, and the generic map ends the one under test. -/
theorem instances_isStatement_portlessEntity :
    ∃ used tested, portlessEntity.usage = .ok used ∧ portlessEntity.testbench = .ok tested ∧
      IsStatement used ∧ IsStatement (portlessEntity.underTest portlessUnit) ∧
      "  port map (\n  );".toList <:+ used ∧ "    w => w\n  );".toList <:+ portlessEntity.underTest portlessUnit := by
  have ⟨usage, testbench, _⟩ := Design.instances_isStatement portlessEntity
  have used : portlessEntity.usage = .ok (Vhdl.usageOf portlessUnit) := by decide +kernel
  obtain ⟨tested, made⟩ : ∃ tested, portlessEntity.testbench = .ok tested := ⟨_, rfl⟩
  obtain ⟨unit, read, -, statement⟩ := testbench tested made
  obtain rfl := Except.ok.inj (read.symm.trans interface_portlessEntity)
  exact ⟨_, tested, used, made, usage _ used, statement, by decide, by decide⟩

end Pinout
