import Pinout.Proofs.Pattern.Horizon
import Pinout.Proofs.Verilog.Declarations
import Pinout.Proofs.Verilog.TestbenchReading

/-! # Testbenches of testbenches

A testbench of a module is read as a module again: it has the name of the testbench, no ports, and the
parameters of the module with their defaults. So a chain of testbenches keeps the parameters.
-/

namespace Pinout.Verilog

open Text

variable {code line source x y tb : Text} {lines lines' heading : List Text} {gs gs' : List Generic}
  {unit : Interface}

/-- In the lines the parameters `gs` are found, whatever else is left of them without comments. -/
def Refound (lines : List Text) (gs : List Generic) : Prop :=
  ∃ y, Rereads (lines.flatMap (· ++ ['\n'])) y gs

theorem refound_nil : Refound [] [] :=
  ⟨[], .nil⟩

theorem Refound.append (first : Refound lines gs) (second : Refound lines' gs') :
    Refound (lines ++ lines') (gs ++ gs') := by
  obtain ⟨y, first⟩ := first
  obtain ⟨y', second⟩ := second
  refine ⟨y ++ y', ?_⟩
  rw [List.flatMap_append]
  exact first.append second

theorem refound_line (h : Rereads (line ++ ['\n']) y gs) : Refound [line] gs :=
  ⟨y, by rwa [List.flatMap_singleton]⟩

theorem refound_fixed (h : ∀ l ∈ lines, l ∈ phrases) : Refound lines [] := by
  induction lines with
  | nil => exact refound_nil
  | cons l lines ih =>
      have first := refound_line (rereads_fixed (h l (by simp)))
      exact first.append (ih fun l hl => h l (by simp [hl]))

theorem refound_comment (margin x : Text) (blank : ∀ c ∈ margin, c = ' ') (inline : '\n' ∉ x) :
    Refound [margin ++ "//".toList ++ x] [] := by
  have spaces : Rereads margin margin [] := rereads_separator (fun c hc => by rw [blank c hc]; decide) fun hc =>
    absurd (blank _ hc) (by decide)
  have whole := spaces.append (rereads_comment inline)
  refine refound_line (y := margin ++ ['\n']) ?_
  simpa using whole

theorem refound_rows {α : Type} {items : List α} {write : α → Text}
    (h : ∀ item ∈ items, Rereads (write item ++ ['\n']) (write item ++ ['\n']) []) :
    Refound (items.map write) [] := by
  have rows := rereads_lines h
  rw [List.flatMap_eq_nil_iff.mpr fun _ _ => rfl] at rows
  exact ⟨_, rows⟩

theorem Rereads.generics_eq_nil (h : Rereads [] y gs) : gs = [] := by
  have nothing := h.strips.replaceAll_eq
  have found := h.parameters none []
  rw [← nothing] at found
  exact (List.append_eq_nil_iff.mp found.symm).1

theorem refound_section {rows : List Text} (title : Refound heading []) (listed : Refound rows gs) :
    Refound (section? heading rows) gs := by
  rw [section?]
  split
  · rename_i empty
    rw [List.isEmpty_iff.mp empty] at listed
    obtain ⟨y, listed⟩ := listed
    rw [listed.generics_eq_nil]
    exact refound_nil
  · exact title.append listed

def opening (name : Text) : Text :=
  ["`timescale 1ns / 1ps".toList, "".toList, "module ".toList ++ name ++ "_tb;".toList].flatMap (· ++ ['\n'])

theorem opening_eq (name : Text) : opening name = ("`timescale 1ns / 1ps\n".toList ++ ['\n']) ++
    (("module".toList ++ [' ']) ++ ((name ++ "_tb".toList ++ [';']) ++ ['\n'])) := by
  have timescale : "`timescale 1ns / 1ps\n".toList = "`timescale 1ns / 1ps".toList ++ ['\n'] := by decide
  have keyword : "module ".toList = "module".toList ++ [' '] := by decide
  have suffix : "_tb;".toList = "_tb".toList ++ [';'] := by decide
  have empty : "".toList = [] := rfl
  unfold opening
  rw [List.flatMap_cons, List.flatMap_cons, List.flatMap_singleton, timescale, keyword, suffix, empty]
  simp only [List.append_assoc, List.nil_append]

/-- What a source has to be like so that the parameters can be read again from its testbench. -/
structure Repeatable (source : Text) (unit : Interface) : Prop where
  read : Verilog.interface source = .ok unit
  /-- No comment is left open. -/
  closed : ¬ "/*".toList <:+: stripComments source
  /-- The name of the module is no keyword of a port. -/
  name : directionWord.search? unit.name = none
  /-- No default holds a keyword of a declaration. -/
  defaults : ∀ g ∈ unit.generics, KeywordFree (textOrEmpty g.default)
  /-- No range holds a keyword of a declaration. -/
  ranges : ∀ p ∈ unit.ports, KeywordFree (textOrEmpty p.width)

theorem CommentFree.of_infix (free : CommentFree y) (h : x <:+: y) : CommentFree x :=
  ⟨fun line => free.1 (line.trans h), fun block => free.2 (block.trans h)⟩

namespace Repeatable

variable (repeatable : Repeatable source unit)
include repeatable

theorem commentFree : CommentFree (stripComments source) :=
  ⟨not_slashes_infix_stripComments source, repeatable.closed⟩

theorem extracted : ExtractedFrom (stripComments source) unit :=
  extractedFrom_interface repeatable.read

theorem refound_parameters : Refound (unit.generics.map parameterLine) unit.generics := by
  have lines := rereads_lines fun g (hg : g ∈ unit.generics) =>
    show Rereads (parameterLine g ++ ['\n']) (parameterLine g ++ ['\n']) [g] by
    obtain ⟨name, v, same, value⟩ := repeatable.extracted.generics g hg
    have keywords := repeatable.defaults g hg
    rw [same] at keywords ⊢
    exact rereads_parameterLine name value (repeatable.commentFree.of_infix value.part) keywords
  rw [List.flatMap_singleton'] at lines
  exact ⟨_, lines⟩

theorem refound_signals : Refound (unit.ports.map signalLine) [] := by
  refine refound_rows fun p hp => ?_
  obtain ⟨name, w, range, part⟩ := repeatable.extracted.ports p hp
  have keywords := repeatable.ranges p hp
  rw [range] at keywords
  have free : CommentFree w := by
    rcases part.part with rfl | inside
    · decide
    · exact repeatable.commentFree.of_infix inside
  exact rereads_signalLine name range free keywords

theorem isName_input : ∀ p ∈ unit.inputs, p.name.IsName := fun p hp =>
  (repeatable.extracted.ports p (List.mem_of_mem_filter hp)).1

theorem refound_pulse : Refound (pulse unit.inputs) [] := by
  have names := repeatable.isName_input
  cases inputs : unit.inputs with
  | nil => exact refound_nil
  | cons first rest =>
      have name := names first (by simp [inputs])
      have set : ∀ digit ∈ ["0".toList, "1".toList], Refound [assignment first digit] [] := fun digit hdigit => by
        have known : ∀ digit ∈ ["0".toList, "1".toList], digit ∈ phrases := by decide
        exact refound_line (rereads_assignment name (known digit hdigit))
      have empty : Refound ["".toList] [] := refound_fixed (by decide)
      have comment : Refound ["    ".toList ++ "//".toList ++ " Pulse the first input".toList] [] :=
        refound_comment _ _ (by decide) (by decide)
      have wait : Refound [delay pulseTime] [] := refound_fixed (by decide)
      have all := ((empty.append comment).append (set "1".toList (by simp))).append
        (wait.append (set "0".toList (by simp)))
      exact all

theorem refound_sections : Refound (List.flatten
    [Text.section? ["".toList, "  // Parameters".toList] (unit.generics.map parameterLine),
     Text.section? ["".toList, "  // Inputs and outputs".toList] (unit.ports.map signalLine),
     ["".toList, "  // Instantiate the Unit Under Test (UUT)".toList, "  ".toList ++ indentRest "  ".toList
        (instantiation unit.name "uut" (unit.generics.map fun g => (g.name, g.name)) unit.ports), "".toList,
      "  initial begin".toList, "    // Initialize Inputs".toList],
     unit.inputs.map (assignment · "0"),
     ["".toList, "    // Wait ".toList ++ settleTime ++ " ns for global reset to finish".toList, delay settleTime],
     pulse unit.inputs,
     ["  end".toList, "".toList, "endmodule".toList]]) unit.generics := by
  have empty : Refound ["".toList] [] := refound_fixed (by decide)
  have comment (margin text : Text) (blank : ∀ c ∈ margin, c = ' ') (inline : '\n' ∉ text) :=
    empty.append (refound_comment margin text blank inline)
  have parameters := refound_section (comment "  " " Parameters" (by decide) (by decide)) repeatable.refound_parameters
  have signals := refound_section (comment "  " " Inputs and outputs" (by decide) (by decide)) repeatable.refound_signals
  have title := comment "  " " Instantiate the Unit Under Test (UUT)" (by decide) (by decide)
  have uut := refound_line (rereads_uut repeatable.extracted repeatable.name)
  have process : Refound ["".toList, "  initial begin".toList] [] := refound_fixed (by decide)
  have note := refound_comment "    " " Initialize Inputs" (by decide) (by decide)
  have cleared : Refound (unit.inputs.map (assignment · "0")) [] :=
    refound_rows fun p hp => rereads_assignment (repeatable.isName_input p hp) (by decide)
  have wait := comment "    " (" Wait ".toList ++ settleTime ++ " ns for global reset to finish".toList) (by decide)
    (by decide)
  have settle : Refound [delay settleTime] [] := refound_fixed (by decide)
  have ending : Refound ["  end".toList, "".toList, "endmodule".toList] [] := refound_fixed (by decide)
  have instantiated := title.append (uut.append (process.append note))
  have all : Refound _ (unit.generics ++ []) := parameters.append <| signals.append <| instantiated.append <| cleared.append <|
    (wait.append settle).append <| repeatable.refound_pulse.append ending
  rw [List.append_nil unit.generics] at all
  exact all

theorem exists_rereads_testbenchOf :
    ∃ y, Rereads (testbenchOf unit) (opening unit.name ++ y) unit.generics := by
  have name := repeatable.extracted.name
  have first : Rereads ("`timescale 1ns / 1ps\n".toList ++ ['\n']) ("`timescale 1ns / 1ps\n".toList ++ ['\n']) [] :=
    rereads_fixed (by decide)
  have keyword : Rereads ("module".toList ++ [' ']) ("module".toList ++ [' ']) [] :=
    rereads_phrase (by decide) (by decide) (by decide)
  have label := (rereads_word_mark name.testbench (c := ';') (by decide)).append rereads_lineFeed
  obtain ⟨y, sections⟩ := repeatable.refound_sections
  refine ⟨y, ?_⟩
  have whole := (first.append (keyword.append label)).append sections
  rw [← opening_eq] at whole
  unfold testbenchOf
  rw [document_cons]
  exact whole

theorem stripComments_testbenchOf : ∃ y, stripComments (testbenchOf unit) = opening unit.name ++ y ∧
    Passive (opening unit.name ++ y) ∧ genericsBehind none (opening unit.name ++ y) = unit.generics := by
  obtain ⟨y, rereads⟩ := repeatable.exists_rereads_testbenchOf
  have parameters := rereads.parameters none []
  have nothing (before : Option Char) : genericsBehind before [] = [] := by
    rw [genericsBehind, Pattern.scan_nil rfl, List.map_nil]
  rw [List.append_nil, nothing, List.append_nil] at parameters
  exact ⟨y, rereads.strips.replaceAll_eq, rereads.passive, parameters⟩

end Repeatable

theorem unitName_of_opening {name : Text} (known : name.IsName) (h : stripComments source = opening name ++ y) :
    unitName source = name ++ "_tb" := by
  have outside : (lastOf none ("`timescale 1ns / 1ps\n".toList ++ ['\n'])).any isWord = false := by
    rw [lastOf_append]
    rfl
  have takes := takes_modulePattern outside ⟨_, known.testbench.nonempty, known.testbench.word⟩ (g := [' ']) (by decide)
    (by decide) (s := ';' :: '\n' :: y) (Pattern.stops_cons.mpr (by decide))
  have quiet := modulePattern_ledBy.passes_of_search? (x := "`timescale 1ns / 1ps\n".toList) (c := '\n')
    (Option.isNone_iff_eq_none.mp (by decide)) (by decide) none
    ("module".toList ++ [' '] ++ (name ++ "_tb".toList) ++ ';' :: '\n' :: y)
  obtain ⟨found, search, reading, -⟩ := Pattern.find?_of_quiet_of_takes quiet takes 0
  have text : opening name ++ y = ("`timescale 1ns / 1ps\n".toList ++ ['\n']) ++
      ("module".toList ++ [' '] ++ (name ++ "_tb".toList) ++ ';' :: '\n' :: y) := by
    rw [opening_eq]
    simp only [List.append_assoc, List.cons_append, List.nil_append]
  rw [unitName, h, text, Pattern.search?, Cursor.start, search]
  change found.group 1 = _
  rw [← Match.group_reading, reading]
  rfl

theorem ports_of_passive (h : Passive (stripComments source)) : ports source = .ok [] := by
  have scanned := Pattern.reading_findAll portPattern (stripComments source)
  have quiet := Pattern.scan_of_quiet (h.port none [])
  rw [List.append_nil, Pattern.scan_nil rfl] at quiet
  rw [quiet, List.map_eq_nil_iff] at scanned
  rw [ports, scanned]
  rfl


def benchInterface (unit : Interface) : Interface where
  name := unit.name ++ "_tb"
  ports := []
  generics := unit.generics

theorem directionWord_eq : directionWord =
    .wholeWord (.keyword "input" <|> .keyword "output" <|> .keyword "inout") := rfl

/-- The testbench of a module is a source of the same kind, with the same parameters. -/
theorem Repeatable.testbenchOf (repeatable : Repeatable source unit) :
    Repeatable (testbenchOf unit) (benchInterface unit) := by
  obtain ⟨y, stripped, passive, parameters⟩ := repeatable.stripComments_testbenchOf
  rw [← stripped] at passive parameters
  have name := repeatable.extracted.name
  refine ⟨?_, ?_, ?_, repeatable.defaults, fun p hp => absurd hp List.not_mem_nil⟩
  · rw [Verilog.interface, ports_of_passive passive, unitName_of_opening name stripped, generics_eq_genericsBehind,
      parameters]
    rfl
  · exact Pattern.not_infix_of_passes_exactly passive.block (by decide)
  · rw [directionWord_eq]
    exact Pattern.search?_wholeWord_eq_none portPattern_ledBy.words rfl (c := '_') name.testbench.word (by simp [benchInterface])
      (by decide)

/-- What comes out when a testbench is made of a source, then of the testbench, and so on. -/
def chain : Nat → Text → Except UnknownDirection Text
  | 0, source => .ok source
  | steps + 1, source => do chain steps (← testbench source)

theorem testbench_eq (h : interface source = .ok unit) : testbench source = .ok (testbenchOf unit) := by
  rw [testbench, h]
  rfl

/-- After any number of steps, what was read at first is read as a testbench so many times. -/
theorem Repeatable.exists_chain (repeatable : Repeatable source unit) (steps : Nat) :
    ∃ tb, chain steps source = .ok tb ∧ Repeatable tb (benchInterface^[steps] unit) := by
  induction steps generalizing source unit with
  | zero => exact ⟨source, rfl, repeatable⟩
  | succ steps ih =>
      obtain ⟨tb, made, read⟩ := ih repeatable.testbenchOf
      refine ⟨tb, ?_, read⟩
      rw [chain, testbench_eq repeatable.read]
      exact made

theorem benchInterface_iterate (steps : Nat) (unit : Interface) :
    benchInterface^[steps + 1] unit =
      { name := unit.name ++ (List.replicate (steps + 1) "_tb".toList).flatten, ports := [], generics := unit.generics } := by
  induction steps generalizing unit with
  | zero => simp [benchInterface]
  | succ steps ih =>
      rw [Function.iterate_succ_apply, ih, List.replicate_succ (n := steps + 1), List.flatten_cons, ← List.append_assoc]
      rfl

/-- Along a chain of testbenches the parameters stay as they are, and the name grows by a suffix at each step. -/
theorem interface_chain (repeatable : Repeatable source unit) (steps : Nat) :
    ∃ tb, chain (steps + 1) source = .ok tb ∧ Verilog.interface tb = .ok
      { name := unit.name ++ (List.replicate (steps + 1) "_tb".toList).flatten, ports := [], generics := unit.generics } := by
  obtain ⟨tb, made, read⟩ := repeatable.exists_chain (steps + 1)
  refine ⟨tb, made, ?_⟩
  rw [read.read, benchInterface_iterate]

/-- A module whose last parameter has an empty default. -/
def bufferSource : Text :=
  "/* a buffer */ module buffer #(parameter W = f(2 * (8 + 1)), parameter T = ) (\n  input [W-1:0] d, // data\n  output q );"

def bufferInterface : Interface where
  name := "buffer"
  ports := [
    { name := "d", direction := .input, dataType := "wire", width := some "W-1:0".toList },
    { name := "q", direction := .output, dataType := "wire" }]
  generics := [
    { name := "W", default := some "f(2 * (8 + 1))".toList },
    { name := "T", default := some [] }]

theorem repeatable_buffer : Repeatable bufferSource bufferInterface where
  read := by decide +kernel
  closed := by decide +kernel
  name := by decide +kernel
  defaults := by decide +kernel
  ranges := by decide +kernel

theorem interface_chain_buffer :
    Repeatable bufferSource bufferInterface ∧ ∃ tb, chain 2 bufferSource = .ok tb ∧ Verilog.interface tb = .ok
      { name := "buffer_tb_tb", ports := [], generics := bufferInterface.generics } :=
  ⟨repeatable_buffer, interface_chain repeatable_buffer 1⟩

end Pinout.Verilog
