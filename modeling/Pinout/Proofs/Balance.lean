import Pinout.Design
import Pinout.Proofs.Verilog.Balance
import Pinout.Proofs.Vhdl.Balance

/-! # Balanced parentheses

The texts written for a design are balanced exactly as far as what they quote of the source is: the
defaults, and in a testbench also the ranges of the ports. A pattern that stops at the first closing
parenthesis or comma quotes only a part of a range or default.
-/

namespace Pinout

open Text

variable {unit : Interface}

/-- The texts written for a design are balanced exactly if what they quote of the source is. -/
theorem Design.balanced_iff (d : Design) (h : d.interface = .ok unit) :
    ∃ usage testbench, d.usage = .ok usage ∧ d.testbench = .ok testbench ∧
      (usage.count '(' = usage.count ')' ↔ unit.defaultSurplus = 0) ∧
      (testbench.count '(' = testbench.count ')' ↔ unit.defaultSurplus + unit.rangeSurplus = 0) := by
  simp only [count_eq_iff_surplus]
  obtain ⟨dialect, source⟩ := d
  cases dialect with
  | verilog =>
      obtain ⟨usage, testbench, used, tested, inUsage, inTestbench⟩ := Verilog.exists_texts h
      exact ⟨usage, testbench, used, tested, by rw [inUsage], by rw [inTestbench]⟩
  | vhdl =>
      obtain ⟨usage, testbench, used, tested, inUsage, inTestbench⟩ := Vhdl.exists_texts h
      refine ⟨usage, testbench, used, tested, by rw [inUsage], ?_⟩
      rw [inTestbench]
      omega

/-- An entity with a call in the range of a port. -/
def callRange : Design where
  dialect := .vhdl
  source := "entity e is port ( a : in std_logic_vector(f(3) downto 0) ); end e;"

/-- The range is cut at the first closing parenthesis. -/
def callRangeUnit : Interface where
  name := "e"
  ports := [
    { name := "a"
      direction := .input
      dataType := "std_logic_vector"
      width := some "f(3" }]

theorem interface_callRange : callRange.interface = .ok callRangeUnit := by
  decide +kernel

theorem testbench_callRange :
    ∃ testbench, callRange.testbench = .ok testbench ∧ testbench.count '(' ≠ testbench.count ')' := by
  obtain ⟨_, testbench, -, tested, -, open_⟩ := Vhdl.exists_texts interface_callRange
  refine ⟨testbench, tested, fun balanced => ?_⟩
  rw [count_eq_iff_surplus, open_] at balanced
  exact absurd balanced (by decide)

theorem balanced_iff_callRange :
    callRange.interface = .ok callRangeUnit ∧
      ∃ usage testbench, callRange.usage = .ok usage ∧ callRange.testbench = .ok testbench ∧
        usage.count '(' = usage.count ')' ∧ testbench.count '(' ≠ testbench.count ')' := by
  obtain ⟨usage, testbench, used, tested, inUsage, inTestbench⟩ := callRange.balanced_iff interface_callRange
  exact ⟨interface_callRange, usage, testbench, used, tested, inUsage.mpr (by decide),
    fun balanced => absurd (inTestbench.mp balanced) (by decide)⟩

end Pinout
