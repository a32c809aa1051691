import Pinout.Proofs.CommandLine.Arguments
import Pinout.Proofs.CommandLine.Files
import Pinout.Proofs.Failure
import Pinout.Proofs.Statements
import Pinout.Proofs.Text.Plain

/-! # Printing and delivering results

A result ends in the same way whether it is printed or sent to a file: none of them ends in a blank line. So a run that
names an output file leaves in it what the run without one prints, also where the output file is the input file, which
is read before anything is written. Three things come between: a device keeps nothing, a description may hold
surrogates, which can be printed and not encoded, and the system may refuse a part of the result.
-/

namespace Pinout

open Text

variable {t : RawText} {line text : Text} {c : Char} {lines : List Text} {sections : List (List Text)}

namespace RawText

/-- The last line of the text is not empty. It may have a line feed behind it. -/
def EndsInLine (t : RawText) : Prop :=
  ∃ body c, c ≠ .char '\n' ∧ (t = body ++ [c] ∨ t = body ++ [c] ++ [.char '\n'])

theorem endsInLine_append (front : RawText) (ends : t.EndsInLine) : EndsInLine (front ++ t) := by
  obtain ⟨body, c, inside, rfl | rfl⟩ := ends
  · exact ⟨front ++ body, c, inside, .inl (by simp)⟩
  · exact ⟨front ++ body, c, inside, .inr (by simp)⟩

theorem endsInLine_of_getLast? (last : text.getLast? = some c) (inside : c ≠ '\n') : EndsInLine text.raw := by
  obtain ⟨body, rfl⟩ := List.getLast?_eq_some_iff.mp last
  exact ⟨Text.raw body, .char c, by simpa using inside, .inl (by simp [Text.raw])⟩

theorem endsInLine_document (last : sections.getLast? = some lines) (ends : lines.getLast? = some line)
    (closed : line.getLast? = some c) (inside : c ≠ '\n') : EndsInLine (document sections).raw := by
  obtain ⟨front, rfl⟩ := List.getLast?_eq_some_iff.mp last
  obtain ⟨more, rfl⟩ := List.getLast?_eq_some_iff.mp ends
  obtain ⟨body, rfl⟩ := List.getLast?_eq_some_iff.mp closed
  refine ⟨Text.raw (document (front ++ [more]) ++ body), .char c, by simpa using inside, .inr ?_⟩
  simp [document, Text.raw]

end RawText

open RawText

namespace Page

theorem isPlain_rawDescription_iff (description : Option RawText) :
    IsPlain (rawDescription description) ↔ IsPlain (description.getD []) := by
  rw [← isPlain_trim (t := description.getD []), rawDescription]
  split
  · next blank => rw [List.isEmpty_iff.mp blank]
  · simp only [isPlain_append, isPlain_raw, true_and, and_true]

theorem rawDescription_map_raw (description : Option Text) :
    rawDescription (description.map Text.raw) = (document [descriptionSection description]).raw := by
  have trimmed : RawText.trim ((description.map Text.raw).getD []) = Text.raw (Text.trim (textOrEmpty description)) := by
    rw [← trim_raw]
    cases description <;> rfl
  rw [rawDescription, trimmed, descriptionSection]
  cases text : Text.trim (textOrEmpty description) with
  | nil => rfl
  | cons c rest => simp [document, Text.raw]

theorem renderRaw_map_raw (dialect : Dialect) (unit : Interface) (diagram : Text) (description : Option Text)
    (usage testbench : Text) :
    renderRaw dialect unit diagram (description.map Text.raw) usage testbench =
      (render dialect unit diagram description usage testbench).raw := by
  rw [renderRaw, render, rawDescription_map_raw]
  simp [document, Text.raw]

end Page

namespace Design

variable {d : Design}

theorem endsInLine_testbench (h : d.testbench = .ok text) : EndsInLine text.raw := by
  obtain ⟨dialect, source⟩ := d
  cases dialect with
  | verilog =>
      obtain ⟨unit, -, made⟩ := Extraction.exists_of_bind_eq_ok h
      cases made
      exact endsInLine_document rfl rfl rfl (by decide)
  | vhdl =>
      obtain ⟨unit, -, made⟩ := Extraction.exists_of_bind_eq_ok h
      cases made
      exact endsInLine_document rfl rfl rfl (by decide)

theorem endsInLine_usage (h : d.usage = .ok text) : EndsInLine text.raw := by
  obtain ⟨unit, read⟩ := exists_interface_of_usage h
  exact endsInLine_of_getLast? (isStatement_usage read h).last (by decide)

theorem endsInLine_rawPage {description : Option RawText} {diagramPath : Option Text}
    (h : d.rawPage description diagramPath = .ok t) : t.EndsInLine := by
  obtain ⟨unit, -, h⟩ := Extraction.exists_of_bind_eq_ok h
  obtain ⟨usage, -, h⟩ := Extraction.exists_of_bind_eq_ok h
  obtain ⟨testbench, -, made⟩ := Extraction.exists_of_bind_eq_ok h
  cases made
  exact endsInLine_append _ (endsInLine_document rfl rfl rfl (by decide))

theorem endsInLine_diagram {dark : Bool} (h : d.diagram dark = .ok text) : EndsInLine text.raw := by
  obtain ⟨ports, -, made⟩ := Extraction.exists_of_bind_eq_ok h
  cases made
  exact endsInLine_document rfl rfl rfl (by decide)

/-- A page holds surrogates exactly if its description does. -/
theorem isPlain_rawPage_iff {description : Option RawText} {diagramPath : Option Text}
    (h : d.rawPage description diagramPath = .ok t) : t.IsPlain ↔ IsPlain (description.getD []) := by
  obtain ⟨unit, -, h⟩ := Extraction.exists_of_bind_eq_ok h
  obtain ⟨usage, -, h⟩ := Extraction.exists_of_bind_eq_ok h
  obtain ⟨testbench, -, made⟩ := Extraction.exists_of_bind_eq_ok h
  cases made
  simp only [Page.renderRaw, isPlain_append, isPlain_raw, true_and, and_true]
  exact Page.isPlain_rawDescription_iff description

theorem rawPage_map_raw (d : Design) (description diagramPath : Option Text) :
    d.rawPage (description.map Text.raw) diagramPath = Text.raw <$> d.page description diagramPath := by
  simp only [rawPage, page, Page.renderRaw_map_raw, map_bind, map_pure]

end Design

theorem Interface.endsInLine_json (unit : Interface) : EndsInLine unit.json.raw := by
  refine endsInLine_of_getLast? (c := '\x7d') ?_ (by decide)
  rw [json, Json.object, Json.block, if_neg nofun, joinLines_append_singleton, List.replicate_zero, List.nil_append]
  exact List.getLast?_concat

namespace CommandLine

variable {tree opened : FileTree} {arguments : List RawText} {i : Invocation} {task : Task} {d : Design}
  {path : RawText} {bytes : List UInt8} {read : RawText → Option (List UInt8)} {location : Location}
  {delivery : Delivery}

theorem printed_eq_filed (h : t.EndsInLine) : printed t = filed t := by
  obtain ⟨body, c, inside, rfl | rfl⟩ := h
  · simp [printed, filed, dropRightWhile, inside, Text.raw]
  · simp [printed, filed, dropRightWhile, inside, Text.raw]

theorem isPlain_filed_iff (t : RawText) : (filed t).IsPlain ↔ t.IsPlain := by
  rw [filed]
  split
  · rfl
  · simp only [isPlain_append, isPlain_raw, and_true]

theorem mapError_eq_ok {α ε ε' : Type} {answer : Except ε α} {f : ε → ε'} {a : α} (h : answer.mapError f = .ok a) :
    answer = .ok a := by
  cases answer with
  | error e => cases h
  | ok b =>
      cases h
      rfl

theorem exists_of_map_eq_ok {α β ε : Type} {answer : Except ε α} {f : α → β} {b : β} (h : answer.map f = .ok b) :
    ∃ a, answer = .ok a ∧ f a = b := by
  cases answer with
  | error e => cases h
  | ok a => exact ⟨a, rfl, Except.ok.inj h⟩

/-- The description that a task shows is a text. -/
def Task.DescribesPlainly (t : Task) : Prop :=
  t.command = .doc → t.format = some .markdown → IsPlain (t.description.getD [])

/-- No result of a task ends in a blank line, and only a description can bring surrogates into it. -/
theorem Task.result_ends (h : task.result d = .ok t) : t.EndsInLine ∧ (t.IsPlain ↔ task.DescribesPlainly) := by
  obtain ⟨command, file, format, dark, description⟩ := task
  have plainly (text : Text) (other : ¬ (command = .doc ∧ format = some .markdown)) :
      IsPlain text.raw ↔ Task.DescribesPlainly { command, file, format, dark, description } :=
    iff_of_true (isPlain_raw text) fun doc markdown => absurd ⟨doc, markdown⟩ other
  rw [result] at h
  split at h
  · obtain ⟨unit, -, rfl⟩ := exists_of_map_eq_ok (mapError_eq_ok h)
    exact ⟨unit.endsInLine_json, plainly _ (by simp_all)⟩
  · obtain ⟨text, usage, rfl⟩ := exists_of_map_eq_ok (mapError_eq_ok h)
    exact ⟨Design.endsInLine_usage usage, plainly _ (by simp_all)⟩
  · obtain ⟨text, testbench, rfl⟩ := exists_of_map_eq_ok (mapError_eq_ok h)
    exact ⟨Design.endsInLine_testbench testbench, plainly _ (by simp_all)⟩
  · obtain ⟨text, diagram, rfl⟩ := exists_of_map_eq_ok (mapError_eq_ok h)
    exact ⟨Design.endsInLine_diagram diagram, plainly _ (by simp_all)⟩
  · next doc markdown =>
      have page := mapError_eq_ok h
      refine ⟨Design.endsInLine_rawPage page, (Design.isPlain_rawPage_iff page).trans ?_⟩
      exact ⟨fun plain _ _ => plain, fun plainly => plainly doc markdown⟩
  · cases h

namespace Plan

theorem deliver_none (i : Invocation) (plain : i.output = none) (stderr result : RawText) :
    deliver i stderr result = stop 0 (printed result) stderr := by
  rw [deliver, plain]

theorem deliver_some (i : Invocation) (nonempty : path ≠ []) (stderr result : RawText) :
    deliver { i with output := some path } stderr result =
      { outcome := { exit := .code 0, stderr }
        delivery := some { path, text := filed result, receipt := log i.verbose [.wrote path] } } := by
  cases path with
  | nil => exact absurd rfl nonempty
  | cons c rest => rfl

theorem ofInvocation_of_code (well : (ofInvocation read i).outcome.exit = .code 0) :
    ∃ task d result stderr, i.task = some task ∧ task.result d = .ok result ∧ ∀ output,
      ofInvocation read { i with output } = deliver { i with output } stderr result := by
  obtain ⟨dialect, named, verbose, task⟩ := i
  cases task with
  | none => cases well
  | some task =>
      cases design : task.design dialect read with
      | error obstacle => simp [ofInvocation, design, stop] at well
      | ok d =>
          cases made : task.result d with
          | error crash => simp [ofInvocation, design, made] at well
          | ok result =>
              refine ⟨task, d, result,
                log verbose (.opened d.dialect d.source.length :: scanEvents d (task.scans d.dialect)),
                rfl, made, fun output => ?_⟩
              simp only [ofInvocation, design, made]

end Plan

theorem run_of_delivery (delivers : (Plan.ofArguments tree.read? arguments).delivery = some delivery) :
    run tree arguments =
      ((Plan.ofArguments tree.read? arguments).outcome.after delivery.receipt (tree.emit delivery),
        (tree.emit delivery).tree) := by
  simp only [run, delivers]

theorem exit_plan_of_run (well : (run tree arguments).1.exit = .code 0) :
    (Plan.ofArguments tree.read? arguments).outcome.exit = .code 0 := by
  cases delivers : (Plan.ofArguments tree.read? arguments).delivery with
  | none => simpa only [run, delivers] using well
  | some delivery => exact Plan.exit_of_delivery delivers

theorem path_ne_nil {stream : FileTree.Stream} (opens : tree.openForWriting path = .ok (stream, opened)) : path ≠ [] := by
  rintro rfl
  cases opens

namespace FileTree

/-- A text that can be encoded is stored in the file that its path leads to, as far as the system takes it. -/
theorem emit_of_target (leads : tree.target? delivery.path = some location) (encodes : delivery.text.utf8 = .ok bytes) :
    tree.emit delivery =
      { tree := tree.put location (.file (tree.taken bytes)), crash? := (tree.shortfall? bytes).map .storage } := by
  rw [emit, openForWriting_of_target leads]
  dsimp only
  rw [write, encodes]
  dsimp only
  rw [store, put_put]
  rfl

theorem emit_of_error {stream : Stream} {e : EncodingFault} (opens : tree.openForWriting delivery.path = .ok (stream, opened))
    (fails : delivery.text.utf8 = .error e) :
    tree.emit delivery = { tree := opened, crash? := some (.encoding e) } := by
  rw [emit, opens]
  dsimp only
  rw [write, fails]

theorem tree_emit_of_device {kind : Device} (opens : tree.openForWriting delivery.path = .ok (.device kind, tree)) :
    (tree.emit delivery).tree = tree := by
  rw [emit, opens]
  dsimp only
  rw [write]
  cases delivery.text.utf8 with
  | error e => rfl
  | ok bytes => cases kind <;> rfl

/-- A path leads to a file or to where one can be, and the text can be encoded and finds room there. -/
structure Holds (tree : FileTree) (path text : RawText) : Prop where
  place : ∃ location, tree.target? path = some location
  room : ∃ plain : Text, text = plain.raw ∧ tree.taken plain.utf8 = plain.utf8

end FileTree

/-- The run ends well, prints nothing and leaves this text in the file at the path. -/
structure Delivers (tree : FileTree) (arguments : List RawText) (path text : RawText) : Prop where
  exit : (run tree arguments).1.exit = .code 0
  stdout : (run tree arguments).1.stdout = []
  kept : ∃ plain : Text, text = plain.raw ∧ (run tree arguments).2.read? path = some plain.utf8

/-- A run that ends well prints the result of its task, and with an output file it would deliver the same. -/
theorem exists_result (plain : i.output = none) (asked : Invocation.ofArguments arguments = .ok i)
    (well : (run tree arguments).1.exit = .code 0) :
    ∃ task d result stderr, i.task = some task ∧ task.result d = .ok result ∧
      (run tree arguments).1.stdout = filed result ∧
      ∀ path named, path ≠ [] → Invocation.ofArguments named = .ok { i with output := some path } →
        Plan.ofArguments tree.read? named =
          { outcome := { exit := .code 0, stderr }
            delivery := some { path, text := filed result, receipt := log i.verbose [.wrote path] } } := by
  have planned : Plan.ofArguments tree.read? arguments = Plan.ofInvocation tree.read? i := by
    rw [Plan.ofArguments, asked]
  obtain ⟨task, d, result, stderr, posed, made, delivered⟩ :=
    Plan.ofInvocation_of_code (planned ▸ exit_plan_of_run well)
  refine ⟨task, d, result, stderr, posed, made, ?_, fun path named nonempty spelled => ?_⟩
  · rw [run, planned, delivered i.output, Plan.deliver_none i plain, printed_eq_filed (task.result_ends made).1]
    rfl
  · rw [Plan.ofArguments, spelled]
    exact (delivered (some path)).trans (Plan.deliver_some i nonempty stderr result)

theorem delivers_iff_holds {named : List RawText} {stream : FileTree.Stream} (plain : i.output = none)
    (asked : Invocation.ofArguments arguments = .ok i)
    (spelled : Invocation.ofArguments named = .ok { i with output := some path })
    (well : (run tree arguments).1.exit = .code 0) (opens : tree.openForWriting path = .ok (stream, opened)) :
    Delivers tree named path (run tree arguments).1.stdout ↔ tree.Holds path (run tree arguments).1.stdout := by
  obtain ⟨task, d, result, stderr, -, -, printing, planned⟩ := exists_result plain asked well
  have planned := planned path named (path_ne_nil opens) spelled
  rw [printing]
  have ran := run_of_delivery (congrArg Plan.delivery planned)
  rw [planned] at ran
  generalize filed result = shown, log i.verbose [.wrote path] = receipt at ran ⊢
  refine ⟨fun ⟨exit, _, text, same, kept⟩ => ?_, fun ⟨⟨location, leads⟩, text, same, room⟩ => ?_⟩
  · have encodes : shown.utf8 = .ok text.utf8 := utf8_eq_ok_iff.mpr ⟨text, same, rfl⟩
    rw [ran] at exit kept
    rcases FileTree.openForWriting_eq_ok opens with ⟨location, leads, -, -⟩ | ⟨kind, leads, rfl, rfl⟩
    · refine ⟨⟨location, leads⟩, text, same, FileTree.shortfall?_eq_none_iff.mp ?_⟩
      rw [FileTree.emit_of_target leads encodes] at exit
      cases fault : tree.shortfall? text.utf8 with
      | none => rfl
      | some e => simp [Outcome.after, fault] at exit
    · rw [FileTree.tree_emit_of_device opens] at kept
      obtain ⟨location, leads'⟩ := FileTree.target?_of_read? kept
      cases leads.symm.trans leads'
  · have encodes : shown.utf8 = .ok text.utf8 := utf8_eq_ok_iff.mpr ⟨text, same, rfl⟩
    have emission : tree.emit { path, text := shown, receipt } = { tree := tree.put location (.file text.utf8) } := by
      rw [FileTree.emit_of_target leads encodes, FileTree.shortfall?_eq_none_iff.mpr room, room]
      rfl
    rw [emission] at ran
    refine ⟨by rw [ran]; rfl, by rw [ran]; rfl, text, same, ?_⟩
    rw [ran]
    exact FileTree.read?_put leads _

theorem isPlain_stdout_iff (plain : i.output = none) (asked : Invocation.ofArguments arguments = .ok i)
    (well : (run tree arguments).1.exit = .code 0) :
    (run tree arguments).1.stdout.IsPlain ↔ ∀ task ∈ i.task, task.DescribesPlainly := by
  obtain ⟨task, d, result, -, posed, made, printing, -⟩ := exists_result plain asked well
  rw [printing, isPlain_filed_iff, (task.result_ends made).2, posed]
  simp

/-- Wherever an output file can be opened for writing, also where it is the input file, a run that names it leaves in it
exactly what the run without an output file prints, and prints nothing, if and only if the path leads to a file and not
to a device and the printed text can be encoded and finds room. It does not matter how the file is named. -/
theorem output_agrees (tree : FileTree) {stream : FileTree.Stream} (omits : OmitsOutput arguments)
    (asked : Invocation.ofArguments arguments = .ok i) (well : (run tree arguments).1.exit = .code 0)
    (opens : tree.openForWriting path = .ok (stream, opened)) :
    let shown := (run tree arguments).1.stdout
    (∀ named, Invocation.ofArguments named = .ok { i with output := some path } →
        (Delivers tree named path shown ↔ tree.Holds path shown)) ∧
      (path ≠ operandMark → ∀ front ∈ outputSpellings path,
        (Delivers tree (front ++ arguments) path shown ↔ tree.Holds path shown)) ∧
      (shown.IsPlain ↔ ∀ task ∈ i.task, task.DescribesPlainly) := by
  intro shown
  have plain : i.output = none := output_eq_none omits asked
  refine ⟨fun named spelled => delivers_iff_holds plain asked spelled well opens, fun notMark front spelling => ?_,
    isPlain_stdout_iff plain asked well⟩
  exact delivers_iff_holds plain asked (ofArguments_output omits asked notMark front spelling) well opens

def moduleTree : FileTree :=
  .ofFiles [(utf8 "m.v", utf8 "module m(input a); endmodule")]

/-- The output file may be the input file: the instance of the module replaces its source. -/
theorem output_agrees_inputFile :
    let printed := Text.raw "m instance_name (\n  .a(a)\n);\n"
    let arguments : List RawText := ["usage", "m.v"].map fun word => Text.raw word.toList
    let path := Text.raw "m.v"
    (run moduleTree arguments).1.stdout = printed ∧
      Delivers moduleTree ([Text.raw "--output", path] ++ arguments) path printed ∧
      moduleTree.read? path = some (Text.utf8 "module m(input a); endmodule") := by
  intro printed arguments path
  have shown : (run moduleTree arguments).1 = { exit := .code 0, stdout := printed } := by decide +kernel
  have asked : Invocation.ofArguments arguments = .ok { task := some { command := .usage, file := path } } := rfl
  have omits : OmitsOutput arguments := by
    intro r read
    cases read
    rfl
  have opens : moduleTree.openForWriting path =
      .ok (.file (Location.workingDirectory.child (utf8 "m.v")),
        moduleTree.put (Location.workingDirectory.child (utf8 "m.v")) (.file [])) := by
    decide +kernel
  have holds : moduleTree.Holds path printed :=
    ⟨⟨Location.workingDirectory.child (utf8 "m.v"), by decide +kernel⟩, _, rfl, by decide +kernel⟩
  have agrees := (output_agrees moduleTree omits asked (by rw [shown]) opens).2.1 (by decide) [Text.raw "--output", path]
    (.tail _ (.head _))
  rw [shown] at agrees
  exact ⟨by rw [shown], agrees.mpr holds, by decide +kernel⟩

/-- A description with the byte of a Latin letter is printed and cannot be written: what it leaves is an empty file. A
device is written to and keeps nothing. -/
theorem output_disagrees :
    let described : List RawText := ["doc", "--description", Text.raw "caf" ++ [.surrogate 0x4E9], "m.v"]
    let plain : List RawText := [Text.raw "usage", "m.v"]
    let page : RawText := "page.md"
    let sink : RawText := "/dev/null"
    (OmitsOutput described ∧ (run moduleTree described).1.exit = .code 0 ∧
        (∃ opened, moduleTree.openForWriting page = .ok opened) ∧
        ¬ Delivers moduleTree ("--output" :: page :: described) page (run moduleTree described).1.stdout ∧
        (run moduleTree ("--output" :: page :: described)).2.read? page = some []) ∧
      (OmitsOutput plain ∧ (run moduleTree plain).1.exit = .code 0 ∧
        (∃ opened, moduleTree.openForWriting sink = .ok opened) ∧
        ¬ Delivers moduleTree ("--output" :: sink :: plain) sink (run moduleTree plain).1.stdout) := by
  intro described plain page sink
  have crashes : (run moduleTree ("--output" :: page :: described)).1.exit = .crash (.encoding ⟨267, 0x4E9, 0⟩) := by
    decide +kernel
  have nothing : (run moduleTree ("--output" :: sink :: plain)).2.read? sink = none := by decide +kernel
  refine ⟨⟨?_, by decide +kernel, ⟨_, rfl⟩, fun delivers => ?_, by decide +kernel⟩, ?_, by decide +kernel, ⟨_, rfl⟩,
    fun delivers => ?_⟩
  · intro r read
    cases read
    rfl
  · cases crashes.symm.trans delivers.exit
  · intro r read
    cases read
    rfl
  · obtain ⟨_, -, kept⟩ := delivers.kept
    cases nothing.symm.trans kept

end CommandLine

end Pinout
