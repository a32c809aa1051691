import Pinout.Proofs.CommandLine.Arguments
import Pinout.Proofs.CommandLine.Files
import Pinout.Proofs.CommandLine.Delivery

/-! # Effects of runs

A run changes at most the file that its arguments name as output. Nearly everything that can stop it comes before the
file is opened; what is left is a result that cannot be encoded, or one that the system does not take as a whole. Then
the output file is left empty or with a beginning of the result. Over several runs, what no run names as output stays
as it is.
-/

namespace Pinout.CommandLine

variable {tree after : FileTree} {arguments : List RawText} {turns : List Turn} {path : RawText} {location : Location}
  {read : RawText → Option (List UInt8)} {delivery : Delivery}

/-- The arguments name this output file. -/
def NamesOutput (arguments : List RawText) (path : RawText) : Prop :=
  ∃ i, Invocation.ofArguments arguments = .ok i ∧ i.output = some path

theorem not_namesOutput_of_omits (omits : OmitsOutput arguments) (path : RawText) : ¬ NamesOutput arguments path := by
  rintro ⟨i, asked, named⟩
  rw [output_eq_none omits asked] at named
  cases named

theorem Plan.namesOutput_of_delivery (h : (ofArguments read arguments).delivery = some delivery) :
    NamesOutput arguments delivery.path := by
  obtain ⟨i, stderr, result, asked, same⟩ := exists_of_delivery h
  refine ⟨i, asked, ?_⟩
  rw [same, deliver] at h
  split at h
  · next named =>
      cases h
      exact named
  · cases h

/-- What a delivery leaves in the file that it opened. -/
inductive Delivery.Leaves (delivery : Delivery) : Option Crash → (contents : List UInt8) → Prop
  | whole {bytes : List UInt8} (encodes : delivery.text.utf8 = .ok bytes) : delivery.Leaves none bytes
  | nothing {e : EncodingFault} (fails : delivery.text.utf8 = .error e) : delivery.Leaves (some (.encoding e)) []
  | beginning {e : StorageFault} {bytes kept : List UInt8} (encodes : delivery.text.utf8 = .ok bytes)
      (cut : kept <+: bytes) (short : kept ≠ bytes) : delivery.Leaves (some (.storage e)) kept

theorem FileTree.emit_effect (tree : FileTree) (delivery : Delivery) :
    (tree.emit delivery).tree = tree ∨ ∃ location contents, tree.target? delivery.path = some location ∧
      (tree.emit delivery).tree = tree.put location (.file contents) ∧
      delivery.Leaves (tree.emit delivery).crash? contents := by
  cases opens : tree.openForWriting delivery.path with
  | error e => exact .inl (by rw [emit, opens])
  | ok opened =>
      obtain ⟨stream, opened⟩ := opened
      rcases openForWriting_eq_ok opens with ⟨location, leads, rfl, rfl⟩ | ⟨kind, -, rfl, rfl⟩
      · refine .inr ⟨location, ?_⟩
        cases encodes : delivery.text.utf8 with
        | error e =>
            rw [emit_of_error opens encodes]
            exact ⟨[], leads, rfl, .nothing encodes⟩
        | ok bytes =>
            rw [emit_of_target leads encodes]
            refine ⟨tree.taken bytes, leads, rfl, ?_⟩
            cases fault : tree.shortfall? bytes with
            | none =>
                rw [shortfall?_eq_none_iff.mp fault]
                exact .whole encodes
            | some e =>
                refine .beginning encodes (tree.taken_isPrefix bytes) fun all => ?_
                cases (shortfall?_eq_none_iff.mpr all).symm.trans fault
      · exact .inl (tree_emit_of_device opens)

/-- The error comes when the output file has been opened. -/
def Exit.isLate : Exit → Bool
  | .crash (.encoding _) | .crash (.storage _) => true
  | _ => false

/-- A run among others. The system may run out of room in it. -/
structure Turn where
  arguments : List RawText
  shortage : Option Shortage := none

/-- A run with the files before and after it. -/
structure Call where
  arguments : List RawText
  before : FileTree
  outcome : Outcome
  after : FileTree

/-- The runs on several lists of arguments, each on the files that the runs before have left. -/
def calls : FileTree → List Turn → List Call
  | _, [] => []
  | tree, turn :: rest =>
    let before := { tree with shortage := turn.shortage }
    let (outcome, after) := run before turn.arguments
    { arguments := turn.arguments, before, outcome, after } :: calls after rest

def filesAfter (tree : FileTree) (turns : List Turn) : FileTree :=
  turns.foldl (fun tree turn => (run { tree with shortage := turn.shortage } turn.arguments).2) tree

namespace Call

variable {c : Call}

/-- The files that a run is seen to change. -/
def changes (c : Call) : List (RawText × List UInt8) :=
  c.after.changesSince c.before

/-- The run names an output file, whose path leads to this place. -/
def WritesTo (c : Call) (location : Location) : Prop :=
  ∃ path, NamesOutput c.arguments path ∧ c.before.target? path = some location

/-- The run leaves every file as it was. -/
structure ChangesNothing (c : Call) : Prop where
  after : c.after = c.before
  changes : c.changes = []

/-- The run was stopped in the middle of its delivery: its output file is empty, or holds a beginning of the result. -/
structure IsCutOff (c : Call) (location : Location) : Prop where
  writes : c.WritesTo location
  leaves : ∃ delivery crash contents, (Plan.ofArguments c.before.read? c.arguments).delivery = some delivery ∧
    c.outcome.exit = .crash crash ∧ delivery.Leaves (some crash) contents ∧
    c.after = c.before.put location (.file contents)

/-- A run that names no output file or fails before it is opened changes nothing, and any other run changes at most its
output file. -/
structure TouchesOutput (c : Call) : Prop where
  failed : c.outcome.exit ≠ .code 0 → c.outcome.exit.isLate = false → c.ChangesNothing
  late : c.outcome.exit.isLate = true → c.ChangesNothing ∨ ∃ location, c.IsCutOff location
  unnamed : OmitsOutput c.arguments → c.ChangesNothing
  elsewhere : ∀ location, ¬ c.WritesTo location → c.after.node? location = c.before.node? location
  seen : ∀ name contents, (name, contents) ∈ c.changes → ∃ location, c.WritesTo location ∧ location.isInside ∧
    name = location.path ∧ c.after.node? location = some (.file contents)

end Call

/-- A run leaves the files as they are, or it opens its output file and ends as the delivery does. -/
theorem run_effect (tree : FileTree) (arguments : List RawText) :
    (run tree arguments).2 = tree ∨ ∃ delivery location crash? contents,
      (Plan.ofArguments tree.read? arguments).delivery = some delivery ∧
      tree.target? delivery.path = some location ∧ delivery.Leaves crash? contents ∧
      (run tree arguments).2 = tree.put location (.file contents) ∧
      (run tree arguments).1.exit = crash?.elim (.code 0) .crash := by
  cases delivers : (Plan.ofArguments tree.read? arguments).delivery with
  | none => exact .inl (by simp only [run, delivers])
  | some delivery =>
      rw [run_of_delivery delivers]
      rcases tree.emit_effect delivery with same | ⟨location, contents, leads, filled, leaves⟩
      · exact .inl same
      · refine .inr ⟨delivery, location, _, contents, rfl, leads, leaves, filled, ?_⟩
        rw [Outcome.after, Plan.exit_of_delivery delivers]

theorem tidy_run (tidy : tree.Tidy) (arguments : List RawText) : (run tree arguments).2.Tidy := by
  rcases run_effect tree arguments with same | ⟨delivery, location, _, contents, -, leads, -, filled, -⟩
  · rwa [same]
  · rw [filled]
    exact tidy.put (FileTree.names_ne_of_target leads) _

theorem shortage_run (tree : FileTree) (arguments : List RawText) : (run tree arguments).2.shortage = tree.shortage := by
  rcases run_effect tree arguments with same | ⟨_, _, _, _, -, -, -, filled, -⟩
  · rw [same]
  · rw [filled]
    rfl

theorem runAll_eq_calls (room : tree.shortage = none) (argumentLists : List (List RawText)) :
    runAll tree argumentLists =
      (calls tree (argumentLists.map fun arguments => { arguments })).map fun c => (c.outcome, c.changes) := by
  induction argumentLists generalizing tree with
  | nil => rfl
  | cons arguments rest ih =>
      have before : { tree with shortage := none } = tree := by rw [← room]
      rw [runAll, List.map_cons, calls, before]
      exact congrArg (_ :: ·) (ih ((shortage_run tree arguments).trans room))

/-- Each of several runs is a run on a tidy tree if the first is. -/
theorem run_of_mem_calls {c : Call} (tidy : tree.Tidy) (h : c ∈ calls tree turns) :
    c.before.Tidy ∧ run c.before c.arguments = (c.outcome, c.after) := by
  induction turns generalizing tree with
  | nil => cases h
  | cons turn rest ih =>
      have before : { tree with shortage := turn.shortage }.Tidy := ⟨tidy.nodup, tidy.named⟩
      rcases List.mem_cons.mp h with rfl | later
      · exact ⟨before, rfl⟩
      · exact ih (tidy_run before turn.arguments) later

theorem touchesOutput_of_run {c : Call} (tidy : c.before.Tidy) (taken : run c.before c.arguments = (c.outcome, c.after)) :
    c.TouchesOutput := by
  have unchanged (same : c.after = c.before) : c.ChangesNothing :=
    ⟨same, by rw [Call.changes, same, FileTree.changesSince_self tidy]⟩
  have tidyAfter := tidy_run tidy c.arguments
  have effect := run_effect c.before c.arguments
  rw [taken] at effect tidyAfter
  dsimp only at effect
  rcases effect with same | ⟨delivery, location, crash?, contents, delivers, leads, leaves, filled, exit⟩
  · refine ⟨fun _ _ => unchanged same, fun _ => .inl (unchanged same), fun _ => unchanged same, fun _ _ => ?_,
      fun name contents reported => ?_⟩
    · rw [same]
    · rw [(unchanged same).changes] at reported
      cases reported
  · have named := Plan.namesOutput_of_delivery delivers
    have elsewhere (other : Location) (h : ¬ c.WritesTo other) : c.after.node? other = c.before.node? other := by
      have apart : other ≠ location := fun same => h ⟨delivery.path, named, same ▸ leads⟩
      rw [filled, FileTree.node?_put (FileTree.names_ne_of_target leads), if_neg apart]
    refine ⟨fun failed early => ?_, fun late => .inr ⟨location, ⟨delivery.path, named, leads⟩, ?_⟩,
      fun omits => absurd named (not_namesOutput_of_omits omits _), elsewhere, fun name contents reported => ?_⟩
    · cases leaves with
      | whole => exact absurd exit failed
      | nothing | beginning =>
          rw [exit] at early
          cases early
    · cases crash? with
      | none =>
          rw [exit] at late
          cases late
      | some crash => exact ⟨delivery, crash, contents, delivers, exit, leaves, filled⟩
    · obtain ⟨place, inside, spelled, here, other⟩ := FileTree.exists_location_of_mem_changesSince tidyAfter reported
      have writes : c.WritesTo place := Classical.not_not.mp fun h => other (elsewhere place h ▸ here)
      exact ⟨place, writes, inside, spelled, here⟩

/-- What no run names as output is at the end as it was. -/
theorem node?_filesAfter (tidy : tree.Tidy) (h : ∀ c ∈ calls tree turns, ¬ c.WritesTo location) :
    (filesAfter tree turns).node? location = tree.node? location := by
  induction turns generalizing tree with
  | nil => rfl
  | cons turn rest ih =>
      let before : FileTree := { tree with shortage := turn.shortage }
      have tidyBefore : before.Tidy := ⟨tidy.nodup, tidy.named⟩
      obtain ⟨first, later⟩ := List.forall_mem_cons.mp h
      have touches := touchesOutput_of_run
        (c := ⟨turn.arguments, before, (run before turn.arguments).1, (run before turn.arguments).2⟩) tidyBefore rfl
      exact (ih (tidy_run tidyBefore turn.arguments) later).trans (touches.elsewhere location first)

/-- Whatever files there are, whatever the runs on them are asked for and whenever room runs out, each run touches at
most its output file, and a run that names none or fails before it is open touches nothing. What no run names as output
is at the end as it was. -/
theorem calls_touchOutput (files : List (List UInt8 × List UInt8)) :
    let tree := FileTree.ofFiles files
    (∀ argumentLists, runAll tree argumentLists =
        (calls tree (argumentLists.map fun arguments => { arguments })).map fun c => (c.outcome, c.changes)) ∧
      ∀ turns, (∀ c ∈ calls tree turns, c.TouchesOutput) ∧
        ∀ location, (∀ c ∈ calls tree turns, ¬ c.WritesTo location) →
          (filesAfter tree turns).node? location = tree.node? location := by
  intro tree
  have tidy : tree.Tidy := FileTree.tidy_ofFiles files
  refine ⟨runAll_eq_calls (FileTree.shortage_ofFiles files), fun turns =>
    ⟨fun c member => ?_, fun location => node?_filesAfter tidy⟩⟩
  obtain ⟨tidyBefore, taken⟩ := run_of_mem_calls tidy member
  exact touchesOutput_of_run tidyBefore taken

def moduleFiles : List (List UInt8 × List UInt8) :=
  [(Text.utf8 "m.v", Text.utf8 "module m(input a); endmodule"), (Text.utf8 "kept.txt", Text.utf8 "kept")]

/-- A run on a missing file leaves its output file as it was, and a run after it changes another file only. -/
theorem calls_touchOutput_missingFile :
    let tree := FileTree.ofFiles moduleFiles
    let turns : List Turn := [
      { arguments := ["--output", "kept.txt", "usage", "gone.v"].map fun word => Text.raw word.toList },
      { arguments := ["--output", "out.txt", "usage", "m.v"].map fun word => Text.raw word.toList }]
    ∃ failing later, calls tree turns = [failing, later] ∧
      failing.outcome.exit = .code 1 ∧ failing.after = tree ∧ failing.changes = [] ∧
      later.outcome.exit = .code 0 ∧ later.changes.map (·.1) = [Text.raw "out.txt"] ∧
      ∀ location, ¬ later.WritesTo location → later.after.node? location = tree.node? location := by
  intro tree turns
  obtain ⟨touch, -⟩ := (calls_touchOutput moduleFiles).2 turns
  let failing : Call := ⟨turns[0].arguments, tree, (run tree turns[0].arguments).1, (run tree turns[0].arguments).2⟩
  let found : FileTree := { failing.after with shortage := none }
  let later : Call := ⟨turns[1].arguments, found, (run found turns[1].arguments).1, (run found turns[1].arguments).2⟩
  have exit : failing.outcome.exit = .code 1 := by decide +kernel
  have failed : failing.ChangesNothing := (touch failing (.head _)).failed (by rw [exit]; decide) (by rw [exit]; decide)
  refine ⟨failing, later, rfl, exit, failed.after, failed.changes, by decide +kernel, by decide +kernel,
    fun location elsewhere => ?_⟩
  rw [(touch later (.tail _ (.head _))).elsewhere location elsewhere]
  exact congrArg (fun files : FileTree => files.node? location) failed.after

/-- A run that fails after its output file was opened has emptied it, or has cut its result short. -/
theorem run_leavesBeginning :
    let tree := FileTree.ofFiles moduleFiles
    let described : List RawText :=
      ["--output", "kept.txt", "doc", "--description", Text.raw "caf" ++ [.surrogate 0x4E9], "m.v"]
    let plain : List RawText := ["--output", "kept.txt", "usage", "m.v"].map fun word => Text.raw word.toList
    let crowded := { tree with shortage := some ⟨8, .noSpace⟩ }
    tree.read? "kept.txt" = some (Text.utf8 "kept") ∧
      (run tree described).1.exit = .crash (.encoding ⟨267, 0x4E9, 0⟩) ∧
      (run tree described).2.read? "kept.txt" = some [] ∧
      (run crowded plain).1.exit = .crash (.storage .noSpace) ∧
      (run crowded plain).2.read? "kept.txt" = some (Text.utf8 "m instan") := by
  decide +kernel

end Pinout.CommandLine
