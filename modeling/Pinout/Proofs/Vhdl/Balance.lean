import Pinout.Proofs.Surplus
import Pinout.Proofs.Vhdl.Extracted
import Pinout.Vhdl.Testbench

/-! # Open parentheses of entities

An instance and a testbench of an entity close the parentheses that they open, and the range of a generic
holds none. What is left open are the parentheses of the defaults, and in a testbench those of the port
ranges: it repeats both, once in the component and once for the constants and signals.
-/

namespace Pinout.Vhdl

open Text

variable {code : Text} {unit : Interface}

theorem surplus_association (formal actual : Text) :
    surplus (association formal actual) = surplus formal + surplus actual := by
  unfold association
  simp only [surplus_append]
  change 0 + surplus formal + 0 + surplus actual = _
  omega

/-- An instance is balanced but for the actual texts. -/
theorem surplus_instantiation {head : Text} {ports : List Port} {values : List (Text × Text)}
    (requirePortMap : Bool) (headed : surplus head = 0) (formals : ∀ v ∈ values, surplus v.1 = 0)
    (names : ∀ p ∈ ports, surplus p.name = 0) :
    surplus (instantiation head ports values requirePortMap) = (values.map fun v => surplus v.2).sum := by
  have generics : totalSurplus (punctuate "," (values.map fun v => association v.1 v.2)) =
      (values.map fun v => surplus v.2).sum := totalSurplus_pairs surplus_association formals
  have signals : totalSurplus (punctuate "," (ports.map fun p => association p.name p.name)) = 0 :=
    (totalSurplus_pairs surplus_association names).trans (List.sum_eq_zero (List.forall_mem_map.mpr names))
  have opening : surplus "  generic map (".toList = 1 := by decide
  have openingPorts : surplus "  port map (".toList = 1 := by decide
  have closing : surplus "  );".toList = -1 := rfl
  have closingBlock : surplus "  )".toList = -1 := rfl
  have semicolon : surplus ";".toList = 0 := rfl
  unfold instantiation
  rw [surplus_joinLines, map_association]
  generalize (!ports.isEmpty || requirePortMap) = withPorts
  rw [totalSurplus_append, totalSurplus_cons]
  have first : surplus (if values.isEmpty && !withPorts then head ++ ";".toList else head) = 0 := by
    split
    · rw [surplus_append, headed, semicolon]
      rfl
    · exact headed
  rw [first]
  cases withPorts with
  | false =>
      split
      · rename_i empty
        rw [List.isEmpty_iff.mp empty]
        rfl
      · simp only [List.flatten_cons, List.flatten_nil, totalSurplus_append, totalSurplus_cons, totalSurplus_nil,
          generics, opening, Bool.false_eq_true, if_false, closing]
        omega
  | true =>
      split
      · rename_i empty
        rw [List.isEmpty_iff.mp empty]
        simp only [List.flatten_cons, List.flatten_nil, totalSurplus_append, totalSurplus_cons, totalSurplus_nil,
          signals, openingPorts, if_true, closing]
        rfl
      · simp only [List.flatten_cons, List.flatten_nil, totalSurplus_append, totalSurplus_cons, totalSurplus_nil,
          generics, signals, opening, openingPorts, if_true, closing, closingBlock]
        omega

theorem surplus_of_isBounds {w : Text} (h : IsBounds code w) : surplus w = 0 := by
  obtain ⟨high, order, low, rfl, highBound, lowBound, known⟩ := h
  have space : surplus " ".toList = 0 := rfl
  have ordered : surplus order = 0 := by
    rcases known with rfl | rfl
    · rfl
    · rfl
  simp only [surplus_append, surplus_of_plain fun c hc => (highBound.plain c hc).2,
    surplus_of_plain fun c hc => (lowBound.plain c hc).2, space, ordered]
  rfl

theorem surplus_ranged (dataType range : Text) :
    surplus (ranged dataType range) = surplus dataType + surplus range := by
  unfold ranged
  simp only [surplus_append]
  change surplus dataType + 1 + surplus range + -1 = _
  omega

theorem surplus_genericSubtype {g : Generic} (known : GenericIn code g) : surplus (genericSubtype g) = 0 := by
  obtain ⟨type, same, name⟩ := known.dataType
  rw [genericSubtype, same]
  split
  · rename_i c rest width
    rw [surplus_ranged, Option.getD_some, name.surplus, surplus_of_isBounds (known.width _ width)]
    rfl
  · exact name.surplus

theorem surplus_portSubtype {p : Port} (known : PortIn code p) :
    surplus (portSubtype p) = surplus (textOrEmpty p.width) := by
  unfold portSubtype
  split
  · rename_i c rest width
    split
    · rename_i scalar
      rw [of_decide_eq_true scalar, known.dataType.surplus]
      rfl
    · rw [surplus_ranged, known.dataType.surplus, Int.zero_add, width]
      rfl
  · rename_i none
    rw [known.dataType.surplus]
    cases width : p.width with
    | none => rfl
    | some w =>
        cases w with
        | nil => rfl
        | cons c rest => exact absurd width (none c rest)

theorem surplus_genericDeclaration {g : Generic} (known : GenericIn code g) :
    surplus (genericDeclaration g) = surplus (textOrEmpty g.default) := by
  have margin : surplus "    ".toList = 0 := rfl
  have colon : surplus " : ".toList = 0 := rfl
  have assigns : surplus " := ".toList = 0 := rfl
  unfold genericDeclaration
  simp only [surplus_append, margin, colon, known.name.surplus, surplus_genericSubtype known]
  cases g.default with
  | none => rfl
  | some value =>
      rw [surplus_append, assigns]
      change 0 + (0 + surplus value) = surplus value
      omega

theorem surplus_portDeclaration {p : Port} (known : PortIn code p) :
    surplus (portDeclaration p) = surplus (textOrEmpty p.width) := by
  have mode : surplus (modeKeyword p.direction) = 0 := by cases p.direction <;> rfl
  unfold portDeclaration
  simp only [surplus_append, known.name.surplus, mode, surplus_portSubtype known]
  exact Int.zero_add _

theorem totalSurplus_declarationClause {opening : Text} (opens : surplus opening = 1) (declarations : List Text) :
    totalSurplus (declarationClause opening declarations) = totalSurplus declarations := by
  have closing : surplus "  );".toList = -1 := rfl
  have separated : totalSurplus (punctuate ";" declarations) = totalSurplus declarations :=
    totalSurplus_punctuate rfl declarations
  unfold declarationClause
  split
  · rename_i empty
    rw [List.isEmpty_iff.mp empty]
  · simp only [List.flatten_cons, List.flatten_nil, totalSurplus_append, totalSurplus_cons, totalSurplus_nil,
      separated, opens, closing]
    omega

theorem surplus_component (extracted : ExtractedFrom code unit) :
    surplus (component unit) = unit.defaultSurplus + unit.rangeSurplus := by
  have head : surplus "component ".toList = 0 := by decide
  have is : surplus " is".toList = 0 := rfl
  have tail : surplus "end component;".toList = 0 := by decide
  have generics : totalSurplus (unit.generics.map genericDeclaration) = unit.defaultSurplus :=
    totalSurplus_map fun g hg => surplus_genericDeclaration (extracted.generics g hg)
  have ports : totalSurplus (unit.ports.map portDeclaration) = unit.rangeSurplus :=
    totalSurplus_map fun p hp => surplus_portDeclaration (extracted.ports p hp)
  have genericClause := totalSurplus_declarationClause (rfl : surplus "  generic (".toList = 1)
  have portClause := totalSurplus_declarationClause (rfl : surplus "  port (".toList = 1)
  unfold component
  simp only [surplus_joinLines, List.flatten_cons, List.flatten_nil, totalSurplus_append, totalSurplus_cons,
    totalSurplus_nil, surplus_append, genericClause, portClause, generics, ports, extracted.name.surplus, head, is, tail]
  omega

theorem surplus_constantLine {g : Generic} (known : GenericIn code g) :
    surplus (textOrEmpty (constantLine g)) = surplus (textOrEmpty g.default) := by
  have head : surplus "  constant ".toList = 0 := by decide
  have colon : surplus " : ".toList = 0 := rfl
  have assigns : surplus " := ".toList = 0 := rfl
  have semicolon : surplus ";".toList = 0 := rfl
  unfold constantLine
  cases g.default with
  | none => rfl
  | some value =>
      change surplus ("  constant ".toList ++ g.name ++ " : ".toList ++ genericSubtype g ++ " := ".toList ++ value ++
        ";".toList) = surplus value
      simp only [surplus_append, head, colon, assigns, semicolon, known.name.surplus, surplus_genericSubtype known]
      omega

theorem surplus_missingValueLine {g : Generic} (known : GenericIn code g) : surplus (missingValueLine g) = 0 := by
  have head : surplus "  -- TODO: no default for generic ".toList = 0 := by decide
  have tail : surplus "; add it to the generic map".toList = 0 := by decide
  unfold missingValueLine
  simp only [surplus_append, head, tail, known.name.surplus]
  rfl

theorem surplus_signalLine {p : Port} (known : PortIn code p) :
    surplus (signalLine p) = surplus (textOrEmpty p.width) := by
  have head : surplus "  signal ".toList = 0 := by decide
  have colon : surplus " : ".toList = 0 := rfl
  have semicolon : surplus ";".toList = 0 := rfl
  unfold signalLine
  simp only [surplus_append, known.name.surplus, surplus_portSubtype known, head, colon, semicolon]
  omega

theorem surplus_assignment {p : Port} (name : surplus p.name = 0) {bit : Text} (plain : surplus bit = 0) :
    surplus (assignment p bit) = 0 := by
  have quote : surplus "'".toList = 0 := rfl
  have opening : surplus "(others => ".toList = 1 := rfl
  have closing : surplus ")".toList = -1 := rfl
  have set : surplus (aggregate p bit) = 0 := by
    unfold aggregate
    dsimp only
    split
    · simp only [surplus_append, quote, plain]
      rfl
    · simp only [surplus_append, quote, plain, opening, closing]
      rfl
  unfold assignment
  simp only [surplus_append, name, set]
  rfl

theorem totalSurplus_pulse {ports : List Port} (names : ∀ p ∈ ports, surplus p.name = 0) :
    totalSurplus (pulse ports) = 0 := by
  cases ports with
  | nil => rfl
  | cons first rest =>
      have comment : surplus "    -- Pulse the first input".toList = 0 := by decide
      have wait : surplus (waitLine pulseTime) = 0 := by decide
      have set : ∀ bit, surplus bit = 0 → surplus (assignment first bit) = 0 := fun bit plain =>
        surplus_assignment (names first (by simp)) plain
      unfold pulse
      simp only [totalSurplus_cons, totalSurplus_nil, comment, wait, set "1" rfl, set "0" rfl]
      rfl

theorem totalSurplus_contextLines {context : Context} (known : ContextFrom code context) :
    totalSurplus (contextLines context) = 0 := by
  have semicolon : surplus ";".toList = 0 := rfl
  have clauses : ∀ (keyword : Text) (names : List Text), surplus keyword = 0 → (∀ x ∈ names, surplus x = 0) →
      totalSurplus (names.map fun name => keyword ++ name ++ ";".toList) = 0 := by
    intro keyword names plain known
    refine totalSurplus_eq_zero (List.forall_mem_map.mpr fun name hname => ?_)
    rw [surplus_append, surplus_append, plain, known name hname, semicolon]
    rfl
  have packages : ∀ x ∈ context.packages, surplus x = 0 := by
    refine fun x hx => surplus_of_plain fun c hc => ?_
    have selected := (known.packages x hx).2 c hc
    constructor
    · rintro rfl
      exact absurd selected (by decide)
    · rintro rfl
      exact absurd selected (by decide)
  have ending : totalSurplus (if context.isEmpty then [] else [""]) = 0 := by split <;> rfl
  unfold contextLines
  rw [List.flatten_cons, List.flatten_cons, List.flatten_cons, List.flatten_nil, List.append_nil,
    totalSurplus_append, totalSurplus_append, ending,
    clauses "library " _ (by decide) fun x hx => (known.libraries x hx).surplus, clauses "use " _ rfl packages]
  rfl

theorem surplus_usageOf (extracted : ExtractedFrom code unit) : surplus (usageOf unit) = unit.defaultSurplus := by
  have middle : surplus "_instance : entity work.".toList = 0 := by decide
  have placeholder : ∀ default, surplus (textOr valuePlaceholder default) = surplus (textOrEmpty default) := by
    rintro (_ | _ | ⟨c, rest⟩)
    · exact (by decide : surplus valuePlaceholder = 0)
    · exact (by decide : surplus valuePlaceholder = 0)
    · rfl
  unfold usageOf
  rw [surplus_instantiation, List.map_map, Interface.defaultSurplus]
  · exact congrArg List.sum (List.map_congr_left fun g _ => placeholder g.default)
  · simp only [surplus_append, extracted.name.surplus, middle]
    rfl
  · intro v hv
    obtain ⟨g, hg, rfl⟩ := List.mem_map.mp hv
    exact (extracted.generics g hg).name.surplus
  · exact fun p hp => (extracted.ports p hp).name.surplus

theorem surplus_unitUnderTest (extracted : ExtractedFrom code unit) : surplus (unitUnderTest unit) = 0 := by
  have head : surplus "uut: ".toList = 0 := rfl
  have bound : ∀ g ∈ unit.generics.filter (·.default.isSome), surplus g.name = 0 := fun g hg =>
    (extracted.generics g (List.mem_of_mem_filter hg)).name.surplus
  unfold unitUnderTest
  rw [surplus_instantiation, List.map_map]
  · exact List.sum_eq_zero (List.forall_mem_map.mpr bound)
  · rw [surplus_append, head, extracted.name.surplus]
    rfl
  · exact List.forall_mem_map.mpr bound
  · exact fun p hp => (extracted.ports p hp).name.surplus

/-- A testbench quotes every default and every range of a port twice. -/
theorem surplus_testbenchOf {context : Context} (known : ContextFrom code context)
    (extracted : ExtractedFrom code unit) :
    surplus (testbenchOf context unit) = 2 * (unit.defaultSurplus + unit.rangeSurplus) := by
  have inputs : ∀ p ∈ unit.inputs, surplus p.name = 0 := fun p hp =>
    (extracted.ports p (List.mem_of_mem_filter hp)).name.surplus
  have constants : totalSurplus (unit.generics.filterMap constantLine) = unit.defaultSurplus := by
    rw [totalSurplus_filterMap, Interface.defaultSurplus]
    exact congrArg List.sum (List.map_congr_left fun g hg => surplus_constantLine (extracted.generics g hg))
  have missing : totalSurplus ((unit.generics.filter (·.default.isNone)).map missingValueLine) = 0 :=
    totalSurplus_eq_zero (List.forall_mem_map.mpr fun g hg =>
      surplus_missingValueLine (extracted.generics g (List.mem_of_mem_filter hg)))
  have signals : totalSurplus (unit.ports.map signalLine) = unit.rangeSurplus :=
    totalSurplus_map fun p hp => surplus_signalLine (extracted.ports p hp)
  have initial : totalSurplus (unit.inputs.map (assignment · "0")) = 0 :=
    totalSurplus_eq_zero (List.forall_mem_map.mpr fun p hp => surplus_assignment (inputs p hp) rfl)
  have uut : surplus (indentRest "  " (unitUnderTest unit)) = 0 := by
    rw [surplus_indentRest rfl, surplus_unitUnderTest extracted]
  have pulsed : totalSurplus (pulse unit.inputs) = 0 := totalSurplus_pulse inputs
  have declared : surplus (indentRest "  " (component unit)) = unit.defaultSurplus + unit.rangeSurplus := by
    rw [surplus_indentRest rfl, surplus_component extracted]
  have opening : totalSurplus ["entity " ++ unit.name ++ "_tb is", "end " ++ unit.name ++ "_tb;", "",
      "architecture Behavioral of " ++ unit.name ++ "_tb is", "", "  " ++ indentRest "  " (component unit)] =
      unit.defaultSurplus + unit.rangeSurplus := by
    have words : ∀ t ∈ ["entity ".toList, "_tb is".toList, "end ".toList, "_tb;".toList, "".toList,
        "architecture Behavioral of ".toList, "  ".toList], surplus t = 0 := by decide
    simp only [List.forall_mem_cons] at words
    obtain ⟨entity, is, ending, name, empty, architecture, margin, -⟩ := words
    simp only [totalSurplus_cons, totalSurplus_nil, surplus_append, extracted.name.surplus, declared, entity, is, ending,
      name, empty, architecture, margin]
    omega
  have instantiated : totalSurplus ["", "begin", "", "  " ++ indentRest "  " (unitUnderTest unit), "",
      "  stim_proc: process", "  begin", "    -- Initialization"] = 0 := by
    simp only [totalSurplus_cons, totalSurplus_nil, surplus_append, uut]
    decide
  have settled : totalSurplus [waitLine settleTime] = 0 := by decide
  have closing : totalSurplus ["    wait;", "  end process;", "", "end Behavioral;"] = 0 := by decide
  have heading : totalSurplus [""] = 0 := rfl
  unfold testbenchOf
  rw [surplus_document]
  simp only [List.map_cons, List.map_nil, List.sum_cons, List.sum_nil, totalSurplus_contextLines known, opening,
    totalSurplus_section? heading, totalSurplus_append, constants, missing, signals, instantiated, initial, settled,
    pulsed, closing]
  omega

theorem exists_texts {source : Text} (h : interface source = .ok unit) :
    ∃ used tested, usage source = .ok used ∧ testbench source = .ok tested ∧
      surplus used = unit.defaultSurplus ∧
      surplus tested = 2 * (unit.defaultSurplus + unit.rangeSurplus) := by
  have extracted := extractedFrom_interface h
  refine ⟨usageOf unit, testbenchOf (context source) unit, ?_, ?_, surplus_usageOf extracted,
    surplus_testbenchOf (contextFrom_context source) extracted⟩
  · rw [usage, h]
    rfl
  · rw [testbench, h]
    rfl

end Pinout.Vhdl
