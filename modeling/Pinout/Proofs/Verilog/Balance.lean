import Pinout.Proofs.Surplus
import Pinout.Proofs.Verilog.Extracted
import Pinout.Verilog.Testbench

/-! # Open parentheses of modules

An instance and a testbench of a module close the parentheses that they open. What is left open are the
parentheses of the defaults, and in a testbench those of the ranges.
-/

namespace Pinout.Verilog

open Text

variable {code : Text} {unit : Interface}

theorem surplus_binding (formal actual : Text) : surplus (binding formal actual) = surplus formal + surplus actual := by
  unfold binding
  simp only [surplus_append]
  change 0 + surplus formal + 1 + surplus actual + -1 = _
  omega

/-- An instance is balanced but for the actual texts. -/
theorem surplus_instantiation {unit label : Text} {overrides : List (Text × Text)} {ports : List Port}
    (name : surplus unit = 0) (labelled : surplus label = 0) (formals : ∀ o ∈ overrides, surplus o.1 = 0)
    (names : ∀ p ∈ ports, surplus p.name = 0) :
    surplus (instantiation unit label overrides ports) = (overrides.map fun o => surplus o.2).sum := by
  have signals : totalSurplus (punctuate "," (ports.map fun p => binding p.name p.name)) = 0 :=
    (totalSurplus_pairs surplus_binding names).trans (List.sum_eq_zero (List.forall_mem_map.mpr names))
  have plain : surplus " ".toList = 0 := rfl
  have opening : surplus " (".toList = 1 := rfl
  have openingBlock : surplus " #(".toList = 1 := rfl
  have closingBlock : surplus ") ".toList = -1 := rfl
  have closing : surplus ");".toList = -1 := rfl
  unfold instantiation
  rw [surplus_joinLines, map_binding]
  split
  · rename_i empty
    rw [List.isEmpty_iff.mp empty]
    simp only [List.flatten_cons, List.flatten_nil, totalSurplus_append, totalSurplus_cons, totalSurplus_nil,
      signals, surplus_append, name, labelled, plain, opening, closing]
    rfl
  · simp only [List.flatten_cons, List.flatten_nil, totalSurplus_append, totalSurplus_cons, totalSurplus_nil,
      signals, surplus_append, totalSurplus_pairs surplus_binding formals, name, labelled, opening, openingBlock, closingBlock,
      closing]
    omega

theorem surplus_instance (extracted : ExtractedFrom code unit) (label : Text) (labelled : surplus label = 0)
    (value : Generic → Text) :
    surplus (instantiation unit.name label (unit.generics.map fun g => (g.name, value g)) unit.ports) =
      (unit.generics.map fun g => surplus (value g)).sum := by
  have formals : ∀ o ∈ unit.generics.map fun g => (g.name, value g), surplus o.1 = 0 :=
    List.forall_mem_map.mpr fun g hg => (extracted.generics g hg).1.surplus
  have names : ∀ p ∈ unit.ports, surplus p.name = 0 := fun p hp => (extracted.ports p hp).1.surplus
  rw [surplus_instantiation extracted.name.surplus labelled formals names, List.map_map]
  rfl

theorem surplus_signalLine {p : Port} (name : surplus p.name = 0) :
    surplus (signalLine p) = surplus (textOrEmpty p.width) := by
  have kind : surplus (signalKind p) = 0 := by
    unfold signalKind
    split <;> rfl
  have range : surplus (signalRange p) = surplus (textOrEmpty p.width) := by
    unfold signalRange
    split
    · rename_i scalar
      rw [of_decide_eq_true scalar]
      rfl
    · simp only [surplus_append]
      change 0 + surplus (textOrEmpty p.width) + 0 = _
      omega
  unfold signalLine
  simp only [surplus_append, kind, range, name]
  change 0 + 0 + surplus (textOrEmpty p.width) + 0 + 0 + 0 = _
  omega

theorem surplus_assignment {p : Port} (name : surplus p.name = 0) (digit : Text) :
    surplus (assignment p digit) = surplus digit := by
  unfold assignment
  simp only [surplus_append, name]
  change 0 + 0 + 0 + surplus digit + 0 = _
  omega

theorem totalSurplus_pulse {ports : List Port} (names : ∀ p ∈ ports, surplus p.name = 0) :
    totalSurplus (pulse ports) = 0 := by
  cases ports with
  | nil => rfl
  | cons first rest =>
      have comment : surplus "    // Pulse the first input".toList = 0 := by decide
      have wait : surplus (delay pulseTime) = 0 := by decide
      unfold pulse
      simp only [totalSurplus_cons, totalSurplus_nil, comment, wait,
        surplus_assignment (names first (by simp))]
      rfl

theorem surplus_parameterLine {g : Generic} (name : surplus g.name = 0) :
    surplus (parameterLine g) = surplus (textOrEmpty g.default) := by
  have front : surplus "  parameter ".toList = 0 := by decide
  have equals : surplus " = ".toList = 0 := rfl
  have semicolon : surplus ";".toList = 0 := rfl
  unfold parameterLine
  simp only [surplus_append, name, front, equals, semicolon, Int.zero_add, Int.add_zero]

theorem surplus_testbenchOf (extracted : ExtractedFrom code unit) :
    surplus (testbenchOf unit) = unit.defaultSurplus + unit.rangeSurplus := by
  have names : ∀ p ∈ unit.ports, surplus p.name = 0 := fun p hp => (extracted.ports p hp).1.surplus
  have inputs : ∀ p ∈ unit.inputs, surplus p.name = 0 := fun p hp => names p (List.mem_of_mem_filter hp)
  have parameters : totalSurplus (unit.generics.map parameterLine) = unit.defaultSurplus :=
    totalSurplus_map fun g hg => surplus_parameterLine (extracted.generics g hg).1.surplus
  have signals : totalSurplus (unit.ports.map signalLine) = unit.rangeSurplus :=
    totalSurplus_map fun p hp => surplus_signalLine (names p hp)
  have initial : totalSurplus (unit.inputs.map (assignment · "0")) = 0 :=
    totalSurplus_eq_zero (List.forall_mem_map.mpr fun p hp => surplus_assignment (inputs p hp) "0")
  have uut : surplus (indentRest "  " (instantiation unit.name "uut"
      (unit.generics.map fun g => (g.name, g.name)) unit.ports)) = 0 := by
    rw [surplus_indentRest rfl, surplus_instance extracted "uut" rfl]
    exact List.sum_eq_zero (List.forall_mem_map.mpr fun g hg => (extracted.generics g hg).1.surplus)
  have pulsed : totalSurplus (pulse unit.inputs) = 0 := totalSurplus_pulse inputs
  have opening : totalSurplus ["`timescale 1ns / 1ps", "", "module " ++ unit.name ++ "_tb;"] = 0 := by
    simp only [totalSurplus_cons, totalSurplus_nil, surplus_append, extracted.name.surplus]
    decide
  have instantiated : totalSurplus ["", "  // Instantiate the Unit Under Test (UUT)", "  " ++ indentRest "  "
      (instantiation unit.name "uut" (unit.generics.map fun g => (g.name, g.name)) unit.ports), "",
      "  initial begin", "    // Initialize Inputs"] = 0 := by
    simp only [totalSurplus_cons, totalSurplus_nil, surplus_append, uut]
    decide
  have settled : totalSurplus ["", "    // Wait " ++ settleTime ++ " ns for global reset to finish", delay settleTime] =
      0 := by decide
  have ending : totalSurplus ["  end", "", "endmodule"] = 0 := by decide
  have headings : totalSurplus ["", "  // Parameters"] = 0 ∧ totalSurplus ["", "  // Inputs and outputs"] = 0 := by
    decide
  unfold testbenchOf
  rw [surplus_document]
  simp only [List.map_cons, List.map_nil, List.sum_cons, List.sum_nil, opening, totalSurplus_section? headings.1,
    totalSurplus_section? headings.2, parameters, signals, instantiated, initial, settled, pulsed, ending]
  omega

theorem exists_texts {source : Text} (h : interface source = .ok unit) :
    ∃ used tested, usage source = .ok used ∧ testbench source = .ok tested ∧
      surplus used = unit.defaultSurplus ∧ surplus tested = unit.defaultSurplus + unit.rangeSurplus := by
  have extracted := extractedFrom_interface h
  have tested : testbench source = .ok (testbenchOf unit) := by rw [testbench, h]; rfl
  obtain ⟨ports, declared, h⟩ := Extraction.exists_of_bind_eq_ok h
  cases h
  refine ⟨_, _, ?_, tested, surplus_instance extracted "instance_name" rfl _, surplus_testbenchOf extracted⟩
  rw [usage, declared]
  rfl

end Pinout.Verilog
