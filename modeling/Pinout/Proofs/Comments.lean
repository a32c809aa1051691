import Pinout.Diagram.Svg
import Pinout.Page
import Pinout.Proofs.Verilog.Comments
import Pinout.Proofs.Vhdl.Comments

/-! # Designs without their comments

No answer on a design depends on its comments. They are removed before anything is read, removing them
leaves none behind, and a line comment more or less leaves the same text.
-/

namespace Pinout

namespace Dialect

def commentPattern : Dialect → Pattern
  | verilog => Verilog.commentPattern
  | vhdl => Vhdl.commentPattern

def stripComments : Dialect → Text → Text
  | verilog => Verilog.stripComments
  | vhdl => Vhdl.stripComments

/-- The mark at which a comment begins that runs to the end of its line. -/
def lineMark : Dialect → Text
  | verilog => "//"
  | vhdl => "--"

/-- Behind `a` a line comment with the content `c` has its mark for itself and ends with its line. -/
def AdmitsComment : (dialect : Dialect) → (a c : Text) → Prop
  | verilog, a, c => (∀ e ∈ a.getLast?, e ≠ '/' ∧ e ≠ '*') ∧ '\n' ∉ c ∧ ¬ ['*', '/'] <:+: c
  | vhdl, a, c => (∀ e ∈ a.getLast?, e ≠ '-') ∧ '\n' ∉ c

end Dialect

/-- What is answered on a design without its source being quoted. -/
structure Answers where
  unitName : Text
  ports : Except UnknownDirection (List Port)
  generics : List Generic
  interface : Except UnknownDirection Interface
  context : Option Vhdl.Context
  header : Option Text
  /-- What a service for descriptions is told besides the source: the dialect and the parameters. -/
  request : Except UnknownDirection (Text × List Generic)
  summary : Text
  usage : Except UnknownDirection Text
  testbench : Except UnknownDirection Text
  diagram : Bool → Except UnknownDirection Text
  page : (description diagramPath : Option Text) → Except UnknownDirection Text

namespace Design

def context? (d : Design) : Option Vhdl.Context :=
  match d.dialect with
  | .verilog => none
  | .vhdl => some (Vhdl.context d.source)

def header? (d : Design) : Option Text :=
  match d.dialect with
  | .verilog => none
  | .vhdl => some (Vhdl.header d.source)

def answers (d : Design) : Answers where
  unitName := d.unitName
  ports := d.ports
  generics := d.generics
  interface := d.interface
  context := d.context?
  header := d.header?
  request := d.descriptionRequest.map fun request => (request.dialect, request.generics)
  summary := d.summary
  usage := d.usage
  testbench := d.testbench
  diagram := d.diagram
  page := d.page

end Design

variable {dialect : Dialect} {a b c s t : Text}

section

variable (same : dialect.stripComments s = dialect.stripComments t)
include same

theorem unitName_congr : Design.unitName ⟨dialect, s⟩ = Design.unitName ⟨dialect, t⟩ := by
  cases dialect with
  | verilog =>
      change Verilog.stripComments s = Verilog.stripComments t at same
      simp only [Design.unitName, Verilog.unitName, same]
  | vhdl =>
      change Vhdl.stripComments s = Vhdl.stripComments t at same
      simp only [Design.unitName, Vhdl.unitName, same]

theorem header?_congr : Design.header? ⟨dialect, s⟩ = Design.header? ⟨dialect, t⟩ := by
  cases dialect with
  | verilog => rfl
  | vhdl => exact congrArg (fun code => some (Vhdl.headerOf code)) same

theorem context?_congr : Design.context? ⟨dialect, s⟩ = Design.context? ⟨dialect, t⟩ := by
  cases dialect with
  | verilog => rfl
  | vhdl =>
      change Vhdl.stripComments s = Vhdl.stripComments t at same
      simp only [Design.context?, Vhdl.context, same]

theorem ports_congr : Design.ports ⟨dialect, s⟩ = Design.ports ⟨dialect, t⟩ := by
  cases dialect with
  | verilog => exact congrArg (fun code => (Verilog.portPattern.findAll code).mapM Verilog.portOf) same
  | vhdl => exact congrArg (fun code => Vhdl.portsOf (Vhdl.headerOf code)) same

theorem generics_congr : Design.generics ⟨dialect, s⟩ = Design.generics ⟨dialect, t⟩ := by
  cases dialect with
  | verilog => exact congrArg (fun code => (Verilog.parameterPattern.findAll code).map Verilog.genericOf) same
  | vhdl => exact congrArg (fun code => Vhdl.genericsOf (Vhdl.headerOf code)) same

theorem interface_congr : Design.interface ⟨dialect, s⟩ = Design.interface ⟨dialect, t⟩ := by
  unfold Design.interface
  rw [unitName_congr same, ports_congr same, generics_congr same]

theorem usage_congr : Design.usage ⟨dialect, s⟩ = Design.usage ⟨dialect, t⟩ := by
  cases dialect with
  | verilog =>
      have unit := unitName_congr same
      have ports := ports_congr same
      have generics := generics_congr same
      simp only [Design.unitName, Design.ports, Design.generics] at unit ports generics
      simp only [Design.usage, Verilog.usage, unit, ports, generics]
  | vhdl => exact congrArg (Except.map Vhdl.usageOf) (interface_congr same)

theorem testbench_congr : Design.testbench ⟨dialect, s⟩ = Design.testbench ⟨dialect, t⟩ := by
  cases dialect with
  | verilog => exact congrArg (Except.map Verilog.testbenchOf) (interface_congr same)
  | vhdl =>
      have context := Option.some.inj (context?_congr same)
      have unit := interface_congr same
      change Vhdl.interface s = Vhdl.interface t at unit
      simp only [Design.testbench, Vhdl.testbench, context, unit]

theorem answers_congr : Design.answers ⟨dialect, s⟩ = Design.answers ⟨dialect, t⟩ := by
  have unit := unitName_congr same
  have interface := interface_congr same
  have diagram : Design.diagram ⟨dialect, s⟩ = Design.diagram ⟨dialect, t⟩ := by
    funext dark
    unfold Design.diagram
    rw [unit, ports_congr same]
  have page : Design.page ⟨dialect, s⟩ = Design.page ⟨dialect, t⟩ := by
    funext description diagramPath
    unfold Design.page
    rw [interface, usage_congr same, testbench_congr same]
  have request : (Design.descriptionRequest ⟨dialect, s⟩).map (fun request => (request.dialect, request.generics)) =
      (Design.descriptionRequest ⟨dialect, t⟩).map fun request => (request.dialect, request.generics) := by
    unfold Design.descriptionRequest
    rw [interface]
    cases Design.interface ⟨dialect, t⟩ <;> rfl
  have summary : Design.summary ⟨dialect, s⟩ = Design.summary ⟨dialect, t⟩ := by
    unfold Design.summary
    rw [unit]
  unfold Design.answers
  rw [unit, ports_congr same, generics_congr same, interface, context?_congr same, header?_congr same, request, summary,
    usage_congr same, testbench_congr same, diagram, page]

end

/-- Removing the comments leaves none behind, and whoever reads the text that is left is told the same. -/
theorem Dialect.commentFree_stripComments (dialect : Dialect) (t : Text) :
    dialect.commentPattern.findAll (dialect.stripComments t) = [] ∧
      dialect.stripComments (dialect.stripComments t) = dialect.stripComments t ∧
      Design.answers ⟨dialect, dialect.stripComments t⟩ = Design.answers ⟨dialect, t⟩ := by
  have again : dialect.stripComments (dialect.stripComments t) = dialect.stripComments t := by
    cases dialect with
    | verilog => exact Verilog.stripComments_stripComments t
    | vhdl => exact Vhdl.stripComments_stripComments t
  refine ⟨?_, again, answers_congr again⟩
  cases dialect with
  | verilog => exact Verilog.findAll_stripComments t
  | vhdl => exact Vhdl.findAll_stripComments t

/-- A line comment is invisible, in plain text as well as in another comment and behind a mark that opens one. -/
theorem Dialect.lineComment_invisible (dialect : Dialect) (admits : dialect.AdmitsComment a c) (b : Text) :
    dialect.stripComments (a ++ dialect.lineMark ++ c ++ '\n' :: b) = dialect.stripComments (a ++ '\n' :: b) ∧
      Design.answers ⟨dialect, a ++ dialect.lineMark ++ c ++ '\n' :: b⟩ =
        Design.answers ⟨dialect, a ++ '\n' :: b⟩ := by
  have same : dialect.stripComments (a ++ dialect.lineMark ++ c ++ '\n' :: b) =
      dialect.stripComments (a ++ '\n' :: b) := by
    rw [List.append_assoc, List.append_assoc]
    cases dialect with
    | verilog =>
        obtain ⟨apart, inline, unclosed⟩ := admits
        exact Verilog.stripComments_insert apart inline unclosed b
    | vhdl =>
        obtain ⟨apart, inline⟩ := admits
        exact Vhdl.stripComments_insert apart inline b
  exact ⟨same, answers_congr same⟩

/-- The comment stands within a block comment that is closed behind it. -/
theorem Dialect.lineComment_invisible_block :
    Dialect.AdmitsComment .verilog "module m(input a, /* was".toList " input b); /*".toList ∧
      Design.answers ⟨.verilog, "module m(input a, /* was".toList ++ Dialect.lineMark .verilog ++ " input b); /*".toList ++
          '\n' :: "input c */ input d);".toList⟩ =
        Design.answers ⟨.verilog, "module m(input a, /* was".toList ++ '\n' :: "input c */ input d);".toList⟩ := by
  have admits : Dialect.AdmitsComment .verilog "module m(input a, /* was".toList " input b); /*".toList :=
    ⟨by simp, by simp, by simp [Text.pair_infix_cons]⟩
  exact ⟨admits, (lineComment_invisible .verilog admits _).2⟩

end Pinout
