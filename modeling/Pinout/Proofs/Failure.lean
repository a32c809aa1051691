import Pinout.CommandLine.Run
import Pinout.Proofs.Directions

/-! # When reading fails

The first direction that is misread decides about every answer on a design, and so about the runs that
ask for one. Nothing else makes an answer fail.
-/

namespace Pinout

open Extraction

namespace Design

/-- The answers on a design fail with the error if there is one, and otherwise are there. -/
structure AnswersUnless (d : Design) (error? : Option UnknownDirection) : Prop where
  ports : FailsWith error? d.ports
  interface : FailsWith error? d.interface
  descriptionRequest : FailsWith error? d.descriptionRequest
  usage : FailsWith error? d.usage
  testbench : FailsWith error? d.testbench
  diagram (dark : Bool) : FailsWith error? (d.diagram dark)
  page (description diagramPath : Option Text) : FailsWith error? (d.page description diagramPath)
  rawPage (description : Option RawText) (diagramPath : Option Text) :
    FailsWith error? (d.rawPage description diagramPath)

/-- Whatever is made of the interface and both generated texts fails with the first misread direction. -/
theorem failsWith_generated (d : Design) {α : Type} (make : Interface → Text → Text → α) :
    FailsWith d.misread? (do return make (← d.interface) (← d.usage) (← d.testbench)) := by
  refine d.failsWith_interface.bind fun sound _ => ?_
  have usage := d.failsWith_usage
  have testbench := d.failsWith_testbench
  rw [sound] at usage testbench
  exact usage.bind fun _ _ => testbench.map _

theorem answersUnless (d : Design) : d.AnswersUnless d.misread? where
  ports := d.failsWith_ports
  interface := d.failsWith_interface
  descriptionRequest := d.failsWith_interface.map _
  usage := d.failsWith_usage
  testbench := d.failsWith_testbench
  diagram _ := d.failsWith_ports.map _
  page _ _ := d.failsWith_generated _
  rawPage _ _ := d.failsWith_generated _

end Design

namespace CommandLine

variable {t : Task} {d : Design} {e : UnknownDirection}

/-- Whether a task gets as far as its design: a document needs a format. -/
def Task.isPosed (t : Task) : Prop :=
  t.command = .doc → t.format ≠ none

theorem mapError_eq_error_iff {α : Type} {answer : Except UnknownDirection α} :
    answer.mapError Crash.direction = .error (.direction e) ↔ answer = .error e := by
  cases answer <;> simp [Except.mapError]

theorem map_eq_error_iff {α β ε : Type} {answer : Except ε α} {f : α → β} {e : ε} :
    answer.map f = .error e ↔ answer = .error e := by
  cases answer <;> simp [Except.map]

theorem Task.result_eq_error_iff (t : Task) (d : Design) :
    t.result d = .error (.direction e) ↔ t.isPosed ∧ d.misread? = some e := by
  have answers := d.answersUnless
  obtain ⟨command, file, format, dark, description⟩ := t
  cases command with
  | info => simp [Task.result, Task.isPosed, mapError_eq_error_iff, map_eq_error_iff, answers.interface.eq_error_iff]
  | usage => simp [Task.result, Task.isPosed, mapError_eq_error_iff, map_eq_error_iff, answers.usage.eq_error_iff]
  | testbench =>
      simp [Task.result, Task.isPosed, mapError_eq_error_iff, map_eq_error_iff, answers.testbench.eq_error_iff]
  | doc =>
      match format with
      | none => simp [Task.result, Task.isPosed]
      | some .svg =>
          simp [Task.result, Task.isPosed, mapError_eq_error_iff, map_eq_error_iff, (answers.diagram dark).eq_error_iff]
      | some .markdown =>
          simp [Task.result, Task.isPosed, mapError_eq_error_iff, (answers.rawPage description none).eq_error_iff]

/-- The arguments ask for a task, and its design is read from the files. -/
def Poses (tree : FileTree) (arguments : List RawText) (t : Task) (d : Design) : Prop :=
  ∃ invocation, Invocation.ofArguments arguments = .ok invocation ∧ invocation.task = some t ∧
    t.design invocation.dialect tree.read? = .ok d

namespace Plan

variable {read : RawText → Option (List UInt8)} {arguments : List RawText}

theorem deliver_exit (i : Invocation) (stderr result : RawText) :
    (deliver i stderr result).outcome.exit = .code 0 := by
  rw [deliver]
  split <;> rfl

theorem exit_ofInvocation_iff (i : Invocation) :
    (ofInvocation read i).outcome.exit = .crash (.direction e) ↔
      ∃ t d, i.task = some t ∧ t.design i.dialect read = .ok d ∧ t.isPosed ∧ d.misread? = some e := by
  rw [ofInvocation]
  cases task : i.task with
  | none => simp [stop]
  | some t =>
      cases design : t.design i.dialect read with
      | error obstacle => simp [stop, design]
      | ok d =>
          have failure := t.result_eq_error_iff d (e := e)
          cases result : t.result d with
          | ok text =>
              rw [result] at failure
              simp only [reduceCtorEq, false_iff, not_and] at failure
              simpa [result, deliver_exit, design] using failure
          | error crash =>
              rw [result, Except.error.injEq] at failure
              simp [result, design, failure]

theorem exists_of_delivery {delivery : Delivery} : (ofArguments read arguments).delivery = some delivery →
    ∃ i stderr result, Invocation.ofArguments arguments = .ok i ∧
      ofArguments read arguments = deliver i stderr result := by
  rw [ofArguments]
  split
  · rename_i i asked
    rw [ofInvocation]
    split
    · exact nofun
    · split
      · exact nofun
      · dsimp only
        split
        · exact nofun
        · exact fun _ => ⟨i, _, _, asked, rfl⟩
  · exact nofun
  · exact nofun

theorem exit_of_delivery {delivery : Delivery} (h : (ofArguments read arguments).delivery = some delivery) :
    (ofArguments read arguments).outcome.exit = .code 0 := by
  obtain ⟨i, stderr, result, -, same⟩ := exists_of_delivery h
  rw [same, deliver_exit]

end Plan

theorem crash_emit_ne (tree : FileTree) (delivery : Delivery) (e : UnknownDirection) :
    (tree.emit delivery).crash? ≠ some (.direction e) := by
  rw [FileTree.emit]
  split
  · exact nofun
  · next stream opened _ =>
      rw [FileTree.write]
      split
      · exact nofun
      · cases stream with
        | file location => cases opened.shortfall? _ <;> simp
        | device kind => cases kind <;> exact nofun

theorem exit_run_iff_plan (tree : FileTree) (arguments : List RawText) :
    (run tree arguments).1.exit = .crash (.direction e) ↔
      (Plan.ofArguments tree.read? arguments).outcome.exit = .crash (.direction e) := by
  rw [run]
  dsimp only
  split
  · rfl
  · rename_i delivery writes
    have well := Plan.exit_of_delivery writes
    have other := crash_emit_ne tree delivery e
    cases crash : (tree.emit delivery).crash? with
    | none => simp [Outcome.after, crash, well]
    | some c =>
        rw [crash] at other
        simpa [Outcome.after, crash, well] using other

/-- A run is ended by a direction exactly if it gets to a design with a misread one. -/
theorem exit_run_eq_crash_iff (tree : FileTree) (arguments : List RawText) :
    (run tree arguments).1.exit = .crash (.direction e) ↔
      ∃ t d, Poses tree arguments t d ∧ t.isPosed ∧ d.misread? = some e := by
  rw [exit_run_iff_plan, Plan.ofArguments]
  cases read : Invocation.ofArguments arguments with
  | error halt => cases halt <;> simp [Plan.stop, Poses, read]
  | ok i =>
      simp only [Plan.exit_ofInvocation_iff, Poses, read, Except.ok.injEq, exists_eq_left', and_assoc]

end CommandLine

/-- Reading a captured direction, every answer on a design and every run fail exactly with a direction
that is misread. -/
theorem fails_iff_misread (d : Design) (tree : CommandLine.FileTree) (arguments : List RawText)
    (e : UnknownDirection) :
    (∀ w ∈ d.directionWords, FailsWith (misreadWord? w) (Direction.ofKeyword w)) ∧
      d.AnswersUnless d.misread? ∧
      ((CommandLine.run tree arguments).1.exit = .crash (.direction e) ↔
        ∃ t d, CommandLine.Poses tree arguments t d ∧ t.isPosed ∧ d.misread? = some e) :=
  ⟨fun _ => d.failsWith_word, d.answersUnless, CommandLine.exit_run_eq_crash_iff tree arguments⟩

/-- A module with a misread direction. -/
def foreignDesign : Design where
  dialect := .verilog
  source := "module m(ınput a);"

theorem ports_foreignDesign : ¬ ∃ ports, foreignDesign.ports = .ok ports := by
  have failure : foreignDesign.ports = .error ⟨"ınput"⟩ := by decide
  simp [failure]

end Pinout
