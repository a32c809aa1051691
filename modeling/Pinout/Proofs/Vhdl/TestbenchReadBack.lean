import Pinout.Proofs.Vhdl.ArchitectureReading
import Pinout.Proofs.Vhdl.ContextReading
import Pinout.Proofs.Vhdl.EntityHeader
import Pinout.Proofs.Vhdl.GenericScan
import Pinout.Proofs.Vhdl.PortReading

/-! # Testbenches as entities

A testbench is read as a closed entity: it has the name of the testbench, no ports and no generics,
whatever its context and its architecture are. If the interface of the entity under test asks for nothing
that the source does not ask for, the testbench has the context of the source.
-/

namespace Pinout.Vhdl

open Text

variable {c : Char} {code n s source tb t w x y : Text} {given : Context} {kind : ClauseKind} {before : Option Char}
  {unit : Interface}

def testbenchName (name : n.IsName) : Name :=
  ⟨n ++ "_tb", name.testbench.nonempty, name.testbench.word⟩

def closingLine (n : Text) : Text :=
  "end".toList ++ ([' '] ++ ((n ++ "_tb".toList) ++ ([] ++ ';' :: ['\n'])))

theorem closedEntity_eq (name : n.IsName) :
    closedEntity n = opening (testbenchName name) [' '] [' '] ++ (['\n'] ++ closingLine n) := by
  have first : "entity ".toList = "entity".toList ++ [' '] := by decide
  have is : "_tb is".toList = "_tb".toList ++ ([' '] ++ "is".toList) := by decide
  have last : "end ".toList = "end".toList ++ [' '] := by decide
  have suffix : "_tb;".toList = "_tb".toList ++ [';'] := by decide
  unfold closedEntity closingLine opening testbenchName entityKeyword isKeyword
  rw [List.flatMap_cons, List.flatMap_singleton, first, is, last, suffix]
  simp only [List.append_assoc, List.nil_append, List.cons_append]

theorem endsLine_closedEntity (n : Text) : EndsLine (closedEntity n) :=
  endsLine_flatMap _

theorem inner_closedEntity (name : n.IsName) : ∀ c ∈ closedEntity n, isInner c = true ∨ c = ';' := by
  have fixed : ∀ t ∈ ["entity ".toList, "_tb is".toList, "end ".toList, "_tb;".toList, ['\n']], ∀ c ∈ t,
      isInner c = true ∨ c = ';' := by decide
  have named : ∀ c ∈ n, isInner c = true ∨ c = ';' := fun c hc => by
    simp [isInner, isSelected, name.word c hc]
  unfold closedEntity
  rw [List.flatMap_cons, List.flatMap_singleton]
  simp only [List.forall_mem_append]
  exact ⟨⟨⟨⟨fixed _ (by simp), named⟩, fixed _ (by simp)⟩, fixed _ (by simp)⟩,
    ⟨⟨fixed _ (by simp), named⟩, fixed _ (by simp)⟩, fixed _ (by simp)⟩

theorem not_mem_closedEntity (name : n.IsName) (mark : isInner c = false) (other : c ≠ ';') : c ∉ closedEntity n :=
  fun hc => by
    rcases inner_closedEntity name c hc with inner | rfl
    · rw [mark] at inner
      cases inner
    · exact other rfl

theorem stripComments_of_not_mem (h : '-' ∉ x) : stripComments x = x :=
  stripComments_eq_self fun dashes => h (dashes.subset List.mem_cons_self)

theorem headerAt_closedEntity (name : n.IsName) (lines : EndsLine x) (quiet : entityPattern.Passes x) (plain : '"' ∉ x)
    (y : Text) : HeaderAt (x ++ (closedEntity n ++ y)) x (opening (testbenchName name) [' '] [' ']) ['\n']
      (closingLine n ++ y) [(1, n ++ "_tb")] where
  split := by
    rw [closedEntity_eq name]
    simp only [List.append_assoc]
  first := quiet none _
  opens := by
    have takes : entityPattern.Takes none (opening (testbenchName name) [' '] [' ']) [(1, n ++ "_tb")]
        (['\n'] ++ (closingLine n ++ y)) := takes_entityPattern (testbenchName name) (by decide) (by decide) (by decide)
      (by decide) (Pattern.stops_cons.mpr (by decide))
    exact takes.behind (any_lastOf_of_endsLine lines).symm
  ends := by
    refine ⟨x ++ opening (testbenchName name) [' '] [' '], ['\n'], closingLine n ++ maskStrings y, ?_, ?_, rfl, ?_, ?_⟩
    · have closed : maskStrings (closedEntity n) = closedEntity n :=
        maskStrings_of_not_mem (not_mem_closedEntity name (by decide) (by decide))
      rw [maskStrings_append lines, maskStrings_append (endsLine_closedEntity n), maskStrings_of_not_mem plain, closed,
        closedEntity_eq name]
      simp only [List.append_assoc]
    · exact List.length_append
    · exact Pattern.passes_of_closed (x := ['\n']) rfl (by decide) _ _
    · have outside : (lastOf none (x ++ opening (testbenchName name) [' '] [' '] ++ ['\n'])).any Text.isWord = false := by
        rw [lastOf_append]
        rfl
      have split : closingLine n ++ maskStrings y = "end".toList ++ ([' '] ++ ((testbenchName name).text ++
          ([] ++ ';' :: '\n' :: maskStrings y))) := by
        unfold closingLine testbenchName
        simp only [List.append_assoc, List.cons_append, List.nil_append]
      rw [split]
      exact not_refuses_end outside (by decide) (by decide) (by simp)

def closedInterface (name : Text) : Interface where
  name := name ++ "_tb"
  ports := []
  generics := []

theorem stripComments_testbenchOf (known : ContextFrom code given) (name : unit.name.IsName) :
    stripComments (testbenchOf given unit) = writtenContext given ++ (closedEntity unit.name ++
      stripComments ((architectureLines unit).flatMap (· ++ ['\n']))) := by
  have front : stripComments (writtenContext given) = writtenContext given :=
    stripComments_of_not_mem (known.not_mem_writtenContext (by decide) (by decide))
  have closed : stripComments (closedEntity unit.name) = closedEntity unit.name :=
    stripComments_of_not_mem (not_mem_closedEntity name (by decide) (by decide))
  rw [testbenchOf_eq, ← writtenContext, stripComments_append (endsLine_writtenContext given),
    stripComments_append (endsLine_closedEntity unit.name), front, closed]

theorem colon_mem {a : Reading} (h : a ∈ portPattern.readings before t) : ':' ∈ a.text := by
  rw [readings_portPattern] at h
  obtain ⟨named, -, _, -, behind, hbehind, rfl⟩ := Pattern.exists_of_mem_append h
  obtain ⟨gap, -, _, -, marked, hmarked, rfl⟩ := Pattern.exists_of_mem_append hbehind
  obtain ⟨colon, hcolon, _, -, rest, -, rfl⟩ := Pattern.exists_of_mem_append hmarked
  obtain ⟨-, rfl⟩ := Pattern.mem_char.mp hcolon
  simp [Reading.append]

theorem portsOf_eq_nil (h : ':' ∉ x) : portsOf x = .ok [] := by
  have quiet : portPattern.Quiet none x [] := Pattern.quiet_of_absent (fun _ _ _ => colon_mem) h
  have scanned := Pattern.reading_findAll portPattern x
  rw [Pattern.scan_eq_nil_of_quiet rfl quiet, List.map_eq_nil_iff] at scanned
  rw [portsOf, scanned]
  rfl

theorem genericsOf_eq_nil (h : ')' ∉ x) : genericsOf x = [] := by
  have quiet : (Pattern.exactly clauseEnd).Quiet none x [] := Pattern.quiet_of_forall fun u c v split =>
    Pattern.refuses_exactly fun front => by
      obtain ⟨rfl, -⟩ := List.cons_prefix_cons.mp front
      exact h (by simp [split])
  rw [genericsOf, genericClause?_eq_none quiet]

/-- A testbench is a closed entity, whatever its context and its architecture are. -/
theorem interface_testbenchOf (known : ContextFrom code given) (name : unit.name.IsName) :
    Vhdl.interface (testbenchOf given unit) = .ok (closedInterface unit.name) := by
  have there := headerAt_closedEntity name (endsLine_writtenContext given) known.passes_entityPattern
    (known.not_mem_writtenContext (by decide) (by decide))
    (stripComments ((architectureLines unit).flatMap (· ++ ['\n'])))
  rw [← stripComments_testbenchOf known name] at there
  have headed : header (testbenchOf given unit) = opening (testbenchName name) [' '] [' '] ++ ['\n'] := there.headerOf_eq
  have missing : ∀ {c}, isInner c = false → c ≠ ';' → c ∉ header (testbenchOf given unit) := by
    intro c mark other hc
    refine not_mem_closedEntity name mark other ?_
    rw [closedEntity_eq name, ← List.append_assoc, ← headed]
    exact List.mem_append_left _ hc
  have named : unitName (testbenchOf given unit) = unit.name ++ "_tb" := by
    obtain ⟨found, search, reading⟩ := there.search?_eq
    rw [unitName, search]
    simp only [← Match.group_reading, reading]
    rfl
  rw [Vhdl.interface, ports, portsOf_eq_nil (missing (by decide) (by decide)), generics,
    genericsOf_eq_nil (missing (by decide) (by decide)), named]
  rfl

theorem Context.ext_names {other : Context} (h : ∀ kind, given.names kind = other.names kind) : given = other := by
  obtain ⟨libraries, packages⟩ := given
  obtain ⟨libraries', packages'⟩ := other
  obtain rfl : libraries = libraries' := h .library
  obtain rfl : packages = packages' := h .use
  rfl

theorem context_testbenchOf (known : ContextFrom code given) (once : ∀ kind, (given.names kind).Nodup)
    (within : InterfaceWithin given unit) : context (testbenchOf given unit) = given := by
  obtain ⟨y, strips, harmless⟩ := uncommented_architectureLines within
  have stripped := stripComments_testbenchOf known within.name
  have behind : stripComments ((architectureLines unit).flatMap (· ++ ['\n'])) = y := strips.replaceAll_eq
  rw [behind] at stripped
  refine Context.ext_names fun kind => ?_
  rw [names_context, stripped]
  exact known.firstOccurrences_writtenContext once ((harmless_closedEntity within.name).append harmless) kind

/-- The range of a generic holds no comment, since none of its parts does. -/
theorem not_dashes_infix_of_isBounds (h : IsBounds (stripComments source) w) : ¬ ['-', '-'] <:+: w := by
  obtain ⟨high, order, low, rfl, highBound, lowBound, known⟩ := h
  have part : ∀ {b}, IsBound (stripComments source) b → ¬ ['-', '-'] <:+: b := fun bound pair =>
    not_dashes_infix_stripComments source (pair.trans bound.part)
  have ordered : ¬ ['-', '-'] <:+: order := by
    rcases known with rfl | rfl
    · decide
    · decide
  have passes : ∀ {b}, ¬ ['-', '-'] <:+: b → (Pattern.exactly ['-', '-']).Passes (b ++ [' ']) := fun free =>
    Pattern.passes_exactly_pair free (by decide) (by decide)
  have whole := (passes (part highBound)).append ((passes ordered).append (passes (part lowBound)))
  intro pair
  refine Pattern.not_infix_of_passes_exactly whole (by decide) (pair.trans ⟨[], [' '], ?_⟩)
  simp

/-- The context asks for nothing beyond another one. -/
structure Context.Within (inner outer : Context) : Prop where
  libraries : ∀ library ∈ inner.libraries, library ∈ outer.libraries
  packages : ∀ package ∈ inner.packages, package ∈ outer.packages

theorem Context.Within.names {inner : Context} (h : inner.Within given) (kind : ClauseKind) :
    ∀ n ∈ inner.names kind, n ∈ given.names kind := by
  cases kind with
  | library => exact h.libraries
  | use => exact h.packages

theorem rangeWithin_of_isBounds (bounds : IsBounds (stripComments source) w)
    (within : (context w).Within (context source)) : RangeWithin (context source) w where
  commentFree := not_dashes_infix_of_isBounds bounds
  asks kind n asks := by
    have quiet : commentPattern.Quiet none w [] :=
      quiet_commentPattern (not_dashes_infix_of_isBounds bounds) Pattern.stops_nil
    have stripped : stripComments w = w := Pattern.replaceAll_of_quiet _ quiet
    refine within.names kind n ?_
    rw [names_context, stripped]
    exact ClauseKind.mem_firstOccurrences_iff.mpr asks

theorem rangeWithin_of_isWidth (width : IsWidth (stripComments source) w) : RangeWithin (context source) w := by
  rcases width.part with rfl | ⟨g, blank, u, s, split⟩
  · exact ⟨by decide, fun kind n asks => absurd asks.semicolon_mem (by decide)⟩
  · have place : stripComments source = (u ++ ['('] ++ g) ++ (w ++ s) := by
      rw [← split]
      simp
    refine ⟨fun pair => not_dashes_infix_stripComments source (pair.trans ⟨_, s, by rw [place, List.append_assoc]⟩),
      fun kind n asks => ?_⟩
    have outside : (lastOf none (u ++ ['('] ++ g)).any Text.isWord = false := by
      rw [lastOf_append, lastOf_append]
      cases g with
      | nil => rfl
      | cons d g => exact Pattern.any_lastOf_eq_false rfl fun e he => isWord_of_isBlank (blank e he)
    rw [names_context, ClauseKind.mem_firstOccurrences_iff, place]
    exact asks.of_part outside s

/-- Whatever the source is, its interface asks for nothing new but by defaults and the ranges of generics. -/
theorem interfaceWithin (read : Vhdl.interface source = .ok unit)
    (defaults : ∀ g ∈ unit.generics, ∀ v ∈ g.default, ClauseFree v)
    (ranges : ∀ g ∈ unit.generics, ∀ w ∈ g.width, (context w).Within (context source)) :
    InterfaceWithin (context source) unit := by
  have extracted := extractedFrom_interface read
  refine ⟨extracted.name, fun g hg => ?_, fun p hp => ?_⟩
  · have found := extracted.generics g hg
    exact ⟨found.name, found.dataType, fun w hw => rangeWithin_of_isBounds (found.width w hw) (ranges g hg w hw),
      fun v hv => ⟨fun pair => not_dashes_infix_stripComments source (pair.trans (found.default v hv).part),
        defaults g hg v hv⟩⟩
  · have found := extracted.ports p hp
    exact ⟨found.name, found.dataType, fun w hw => rangeWithin_of_isWidth (found.width w hw)⟩

theorem exists_interface (made : testbench source = .ok tb) :
    ∃ unit, Vhdl.interface source = .ok unit ∧ unit.name = unitName source ∧ unit.generics = generics source ∧
      tb = testbenchOf (context source) unit := by
  obtain ⟨unit, read, made⟩ := Extraction.exists_of_bind_eq_ok made
  obtain ⟨ports, -, declared⟩ := Extraction.exists_of_bind_eq_ok read
  cases made
  cases declared
  exact ⟨_, read, rfl, rfl, rfl⟩

/-- The testbench of an entity is read as a closed entity, and as one with the context of the source if neither a
default nor the range of a generic asks for more. -/
theorem interface_testbench (made : testbench source = .ok tb) :
    Vhdl.interface tb = .ok { name := unitName source ++ "_tb", ports := [], generics := [] } ∧
      ((∀ g ∈ generics source, ∀ v ∈ g.default, ClauseFree v) →
        (∀ g ∈ generics source, ∀ w ∈ g.width, (context w).Within (context source)) →
        context tb = context source ∧ (context source).libraries.Nodup ∧ (context source).packages.Nodup) := by
  obtain ⟨unit, read, named, declared, rfl⟩ := exists_interface made
  have known := contextFrom_context source
  rw [← named, ← declared]
  refine ⟨interface_testbenchOf known (extractedFrom_interface read).name, fun defaults ranges => ?_⟩
  exact ⟨context_testbenchOf known (nodup_names source) (interfaceWithin read defaults ranges),
    nodup_names source .library, nodup_names source .use⟩

/-- An entity whose clauses are repeated, and whose names and ranges look like clauses. -/
def repeatedSource : Text :=
  "library ieee; -- use x;\nLIBRARY ieee; use ieee.all;\nentity is_tb is\n" ++
    "  generic (use : real := user + 1; library : t(use DOWNTO 0));\n" ++
    "  port (entity : in std_logic_vector(use ieee.all; to 0));\nend;"

def repeatedInterface : Interface where
  name := "is_tb"
  ports := [
    { name := "entity", direction := .input, dataType := "std_logic_vector", width := some "use ieee.all; to 0".toList }]
  generics := [
    { name := "use", dataType := some "real".toList, default := some "user + 1".toList },
    { name := "library", dataType := some "t".toList, width := some "use downto 0".toList }]

theorem interface_testbench_repeated :
    ∃ tb, testbench repeatedSource = .ok tb ∧
      (∀ g ∈ generics repeatedSource, ∀ v ∈ g.default, ClauseFree v) ∧
      (∀ g ∈ generics repeatedSource, ∀ w ∈ g.width, (context w).Within (context repeatedSource)) ∧
      Vhdl.interface tb = .ok { name := "is_tb_tb", ports := [], generics := [] } ∧
      context tb = { libraries := ["ieee"], packages := ["ieee.all"] } := by
  have read : Vhdl.interface repeatedSource = .ok repeatedInterface := by decide +kernel
  have asked : context repeatedSource = { libraries := ["ieee"], packages := ["ieee.all"] } := by
    decide +kernel
  have made : testbench repeatedSource = .ok (testbenchOf (context repeatedSource) repeatedInterface) := by
    rw [testbench, read]
    rfl
  obtain ⟨unit, again, named, declared, -⟩ := exists_interface made
  obtain rfl : unit = repeatedInterface := Except.ok.inj (again.symm.trans read)
  have defaults : ∀ g ∈ generics repeatedSource, ∀ v ∈ g.default, ClauseFree v := by
    rw [← declared]
    decide +kernel
  have ranges : ∀ g ∈ generics repeatedSource, ∀ w ∈ g.width, (context w).Within (context repeatedSource) := by
    have nothing : ∀ g ∈ repeatedInterface.generics, ∀ w ∈ g.width, context w = {} := by decide +kernel
    rw [← declared]
    intro g hg w hw
    rw [nothing g hg w hw]
    exact ⟨fun _ h => absurd h List.not_mem_nil, fun _ h => absurd h List.not_mem_nil⟩
  obtain ⟨closed, same⟩ := interface_testbench made
  obtain ⟨same, -, -⟩ := same defaults ranges
  rw [← named] at closed
  exact ⟨_, made, defaults, ranges, closed, same.trans asked⟩

/-- An entity with a clause in the range of a generic, where the order is in capitals. -/
def rangeClause : Text :=
  "entity e is generic ( g : t(use TO ;) ); end e;"

/-- The order of the range is written in small letters, so that the clause in it asks for another package. -/
theorem context_testbench_rangeClause :
    ∃ tb, testbench rangeClause = .ok tb ∧ (∀ g ∈ generics rangeClause, ∀ v ∈ g.default, ClauseFree v) ∧
      (context rangeClause).packages = ["TO".toList] ∧ (context tb).packages = ["TO".toList, "to".toList] := by
  have read : Vhdl.interface rangeClause = .ok
      { name := "e"
        ports := []
        generics := [{ name := "g", dataType := some "t".toList, width := some "use to ;".toList }] } := by
    decide +kernel
  refine ⟨_, by rw [testbench, read]; rfl, ?_, ?_, ?_⟩
  · decide +kernel
  · decide +kernel
  · decide +kernel

end Pinout.Vhdl
