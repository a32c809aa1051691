import Pinout.Proofs.Vhdl.Surroundings
import Pinout.Proofs.Vhdl.TestbenchReading

/-! # Testbenches as entities

A testbench of an entity is read as a closed entity: it has the name of the testbench, no ports and no
generics. If the interface of the entity asks for nothing that its source does not ask for, the testbench
has the context of the source.
-/

namespace Pinout.Vhdl

open Text

variable {c : Char} {line n s x y : Text} {lines lines' heading rows names : List Text} {given : Context}
  {kind : ClauseKind} {before : Option Char} {unit : Interface}

/-- What is left of the lines without comments asks for nothing beyond the context. -/
def Uncommented (context : Context) (lines : List Text) : Prop :=
  ∃ y, commentPattern.Rewrites (fun _ => []) (lines.flatMap (· ++ ['\n'])) y ∧ Harmless context y

theorem uncommented_nil : Uncommented given [] :=
  ⟨[], Pattern.rewrites_nil, harmless_nil⟩

theorem Uncommented.append (first : Uncommented given lines) (second : Uncommented given lines') :
    Uncommented given (lines ++ lines') := by
  obtain ⟨y, strips, harmless⟩ := first
  obtain ⟨y', strips', harmless'⟩ := second
  refine ⟨y ++ y', ?_, harmless.append harmless'⟩
  rw [List.flatMap_append]
  exact strips.append strips'

theorem uncommented_line (h : Harmless given (line ++ ['\n'])) : Uncommented given [line] := by
  refine ⟨line ++ ['\n'], ?_, h⟩
  rw [List.flatMap_singleton]
  exact h.comment.rewrites

theorem uncommented_each (h : ∀ l ∈ lines, Uncommented given [l]) : Uncommented given lines := by
  induction lines with
  | nil => exact uncommented_nil
  | cons l lines ih => exact (h l (by simp)).append (ih fun l hl => h l (by simp [hl]))

theorem uncommented_rows (h : ∀ l ∈ lines, Harmless given (l ++ ['\n'])) : Uncommented given lines :=
  uncommented_each fun l hl => uncommented_line (h l hl)

theorem uncommented_fixed (h : ∀ l ∈ lines, l ∈ phrases) : Uncommented given lines :=
  uncommented_rows fun l hl => harmless_fixed (h l hl)

theorem rewrites_comment (inline : '\n' ∉ x) :
    commentPattern.Rewrites (fun _ => []) ("--".toList ++ (x ++ ['\n'])) ['\n'] := by
  intro before s
  have takes : commentPattern.Takes before ("--".toList ++ x) [] ('\n' :: s) :=
    takes_commentPattern inline (Pattern.stops_cons.mpr rfl)
  have feed : Harmless {} ['\n'] := harmless_lineFeed
  have passed : commentPattern.Rewrites (fun _ => []) ['\n'] ['\n'] := feed.comment.rewrites
  replace passed := passed (lastOf before ("--".toList ++ x)) s
  rw [List.singleton_append] at passed
  rw [List.append_assoc, List.append_assoc, List.singleton_append, ← List.append_assoc,
    Pattern.rewrite_of_takes takes (by simp), List.nil_append, passed]
  simp

theorem uncommented_comment (margin x : Text) (blank : ∀ c ∈ margin, c = ' ') (inline : '\n' ∉ x) :
    Uncommented given [margin ++ "--".toList ++ x] := by
  have spaces : Harmless given margin := harmless_separator (fun c hc => by rw [blank c hc]; decide) fun hc =>
    absurd (blank _ hc) (by decide)
  refine ⟨margin ++ ['\n'], ?_, spaces.append harmless_lineFeed⟩
  have whole := spaces.comment.rewrites.append (rewrites_comment inline)
  simpa using whole

theorem uncommented_section (title : Uncommented given heading) (listed : Uncommented given rows) :
    Uncommented given (section? heading rows) := by
  rw [section?]
  split
  · exact uncommented_nil
  · exact title.append listed

def closedEntity (name : Text) : Text :=
  ["entity ".toList ++ name ++ "_tb is".toList, "end ".toList ++ name ++ "_tb;".toList].flatMap (· ++ ['\n'])

def architectureLines (unit : Interface) : List Text :=
  List.flatten
    [["".toList, "architecture Behavioral of ".toList ++ unit.name ++ "_tb is".toList, "".toList,
      "  ".toList ++ indentRest "  ".toList (component unit)],
     Text.section? ["".toList] (unit.generics.filterMap constantLine ++
       (unit.generics.filter (·.default.isNone)).map missingValueLine),
     Text.section? ["".toList] (unit.ports.map signalLine),
     ["".toList, "begin".toList, "".toList, "  ".toList ++ indentRest "  ".toList (unitUnderTest unit), "".toList,
      "  stim_proc: process".toList, "  begin".toList, "    -- Initialization".toList],
     unit.inputs.map (assignment · "0"),
     [waitLine settleTime],
     pulse unit.inputs,
     ["    wait;".toList, "  end process;".toList, "".toList, "end Behavioral;".toList]]

theorem testbenchOf_eq (given : Context) (unit : Interface) : testbenchOf given unit =
    (contextLines given).flatMap (· ++ ['\n']) ++ (closedEntity unit.name ++
      (architectureLines unit).flatMap (· ++ ['\n'])) := by
  unfold testbenchOf closedEntity
  rw [document_cons, ← List.flatMap_append]
  rfl

theorem clauseFree_testbench (name : n.IsName) : ClauseFree (n ++ "_tb") := fun kind =>
  Pattern.search?_wholeWord_eq_none kind.pattern_ledBy.words (by cases kind <;> rfl) (c := '_') name.testbench.word
    (by simp) (by cases kind <;> decide)

theorem harmless_testbench (name : n.IsName) (differs : c ≠ '-') (plain : Text.isWord c = false) :
    Harmless given (n ++ "_tb".toList ++ [c]) := by
  refine harmless_plain (fun pair => ?_) (clauseFree_testbench name) differs plain
  have dash := name.testbench.word '-' (pair.subset (by simp))
  exact absurd dash (by decide)

theorem harmless_closedEntity (name : n.IsName) : Harmless given (closedEntity n) := by
  have entity : Harmless given ("entity".toList ++ [' ']) :=
    harmless_phrase (by decide) (by decide) (by decide)
  have is : Harmless given ("is".toList ++ ['\n']) := harmless_fixed (by decide)
  have ending : Harmless given ("end".toList ++ [' ']) :=
    harmless_phrase (by decide) (by decide) (by decide)
  have first := entity.append ((harmless_testbench name (c := ' ') (by decide) (by decide)).append is)
  have second := ending.append ((harmless_testbench name (c := ';') (by decide) (by decide)).append harmless_lineFeed)
  have whole := first.append second
  unfold closedEntity
  simpa using whole

theorem uncommented_architecture (name : n.IsName) :
    Uncommented given ["architecture Behavioral of ".toList ++ n ++ "_tb is".toList] := by
  have words : Harmless given ("architecture Behavioral of".toList ++ [' ']) :=
    harmless_phrase (by decide) (by decide) (by decide)
  have is : Harmless given ("is".toList ++ ['\n']) := harmless_fixed (by decide)
  have whole := words.append ((harmless_testbench name (c := ' ') (by decide) (by decide)).append is)
  have front : "architecture Behavioral of ".toList = "architecture Behavioral of".toList ++ [' '] := by decide
  have back : "_tb is".toList = "_tb".toList ++ ([' '] ++ "is".toList) := by decide
  refine uncommented_line ?_
  rw [front, back]
  simpa only [List.append_assoc] using whole

theorem uncommented_missingValue {g : Generic} (name : g.name.IsName) : Uncommented given [missingValueLine g] := by
  have inline : '\n' ∉ " TODO: no default for generic ".toList ++ g.name ++ "; add it to the generic map".toList := by
    simp only [List.mem_append, not_or]
    exact ⟨⟨by decide, fun hc => absurd (name.word _ hc) (by decide)⟩, by decide⟩
  have line : Uncommented given _ := uncommented_comment "  " _ (by decide) inline
  have front : "  -- TODO: no default for generic ".toList =
      "  ".toList ++ ("--".toList ++ " TODO: no default for generic ".toList) := by decide
  unfold missingValueLine
  rw [front]
  simpa only [List.append_assoc] using line

theorem uncommented_pulse (within : InterfaceWithin given unit) : Uncommented given (pulse unit.inputs) := by
  have ports : ∀ p ∈ unit.inputs, PortWithin given p := fun p hp => within.ports p (List.mem_of_mem_filter hp)
  cases inputs : unit.inputs with
  | nil => exact uncommented_nil
  | cons first rest =>
      have port := ports first (by simp [inputs])
      have empty : Uncommented given ["".toList] := uncommented_fixed (by decide)
      have comment : Uncommented given ["    ".toList ++ "--".toList ++ " Pulse the first input".toList] :=
        uncommented_comment _ _ (by decide) (by decide)
      have wait : Uncommented given [waitLine pulseTime] := uncommented_fixed (by decide)
      have set : Uncommented given [assignment first "1"] := uncommented_line (port.harmless_assignment (.inr rfl))
      have clear : Uncommented given [assignment first "0"] := uncommented_line (port.harmless_assignment (.inl rfl))
      exact (empty.append comment).append (set.append (wait.append clear))

theorem uncommented_architectureLines (within : InterfaceWithin given unit) :
    Uncommented given (architectureLines unit) := by
  have empty : Uncommented given ["".toList] := uncommented_fixed (by decide)
  have component := uncommented_line (harmless_indented (harmless_component within) (getLast?_component unit))
  have constants : Uncommented given (unit.generics.filterMap constantLine) := uncommented_rows fun l hl => by
    obtain ⟨g, hg, written⟩ := List.mem_filterMap.mp hl
    exact (within.generics g hg).harmless_constantLine written
  have missing : Uncommented given ((unit.generics.filter (·.default.isNone)).map missingValueLine) :=
    uncommented_each (List.forall_mem_map.mpr fun g hg =>
      uncommented_missingValue (within.generics g (List.mem_of_mem_filter hg)).name)
  have signals : Uncommented given (unit.ports.map signalLine) := uncommented_rows (List.forall_mem_map.mpr
    fun p hp => (within.ports p hp).harmless_signalLine)
  have begins : Uncommented given ["".toList, "begin".toList, "".toList] := uncommented_fixed (by decide)
  have instantiated := uncommented_line (harmless_indented (harmless_unitUnderTest within) (getLast?_unitUnderTest unit))
  have process : Uncommented given ["".toList, "  stim_proc: process".toList, "  begin".toList] :=
    uncommented_fixed (by decide)
  have comment : Uncommented given ["    ".toList ++ "--".toList ++ " Initialization".toList] :=
    uncommented_comment _ _ (by decide) (by decide)
  have cleared : Uncommented given (unit.inputs.map (assignment · "0")) := uncommented_rows (List.forall_mem_map.mpr
    fun p hp => (within.ports p (List.mem_of_mem_filter hp)).harmless_assignment (.inl rfl))
  have settle : Uncommented given [waitLine settleTime] := uncommented_fixed (by decide)
  have ending : Uncommented given ["    wait;".toList, "  end process;".toList, "".toList, "end Behavioral;".toList] :=
    uncommented_fixed (by decide)
  have first := empty.append <| (uncommented_architecture within.name).append <| empty.append component
  have middle := begins.append <| instantiated.append <| process.append comment
  exact first.append <| (uncommented_section empty (constants.append missing)).append <|
    (uncommented_section empty signals).append <| middle.append <| cleared.append <| settle.append <|
    (uncommented_pulse within).append ending

end Pinout.Vhdl
