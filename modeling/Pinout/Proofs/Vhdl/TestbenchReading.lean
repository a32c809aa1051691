import Pinout.Proofs.Vhdl.Rereading
import Pinout.Vhdl.Testbench

/-! # Testbenches of entities read again

The lines of a testbench hold no comments but their own, and ask for nothing that the source of the
entity does not ask for, if the ranges and the defaults in its interface do not.
-/

namespace Pinout.Vhdl

open Text

variable {context : Context} {c : Char} {b n v w x y closing line mark : Text} {g : Generic} {p : Port}
  {unit : Interface} {parts : List Text}

/-- A range that asks for nothing beyond the context. -/
structure RangeWithin (context : Context) (w : Text) : Prop where
  commentFree : ¬ ['-', '-'] <:+: w
  asks : ∀ (kind : ClauseKind) n, kind.Asks none n w → n ∈ context.names kind

/-- A generic that asks for nothing beyond the context wherever it is written. -/
structure GenericWithin (context : Context) (g : Generic) : Prop where
  name : g.name.IsName
  dataType : ∃ type, g.dataType = some type ∧ type.IsName
  width : ∀ w ∈ g.width, RangeWithin context w
  default : ∀ v ∈ g.default, ¬ ['-', '-'] <:+: v ∧ ClauseFree v

/-- A port that asks for nothing beyond the context wherever it is written. -/
structure PortWithin (context : Context) (p : Port) : Prop where
  name : p.name.IsName
  dataType : p.dataType.IsName
  width : ∀ w ∈ p.width, RangeWithin context w

/-- An interface that asks for nothing beyond the context wherever it is written. -/
structure InterfaceWithin (context : Context) (unit : Interface) : Prop where
  name : unit.name.IsName
  generics : ∀ g ∈ unit.generics, GenericWithin context g
  ports : ∀ p ∈ unit.ports, PortWithin context p

theorem harmless_lineFeed : Harmless context ['\n'] :=
  harmless_separator (by decide) (by decide)

def phrases : List Text :=
  ["in", "out", "inout", "'0'", "'1'", "(others => '0')", "(others => '1')", "is", "component", "end component",
    "  generic (", "  port (", "generic map", "port map", "uut", "  constant", "  signal", "", "entity", "end",
    "architecture Behavioral of", "begin", "  stim_proc: process", "  begin", "    wait for 100 ns;",
    "    wait for 10 ns;", "    wait;", "  end process;", "end Behavioral;"].map String.toList

theorem free_of_mem_phrases : ∀ x ∈ phrases, ¬ ['-', '-'] <:+: x ∧ ClauseFree x := by
  decide +kernel

theorem harmless_phrase (h : x ∈ phrases) (differs : c ≠ '-') (plain : Text.isWord c = false) : Harmless context (x ++ [c]) :=
  harmless_plain (free_of_mem_phrases x h).1 (free_of_mem_phrases x h).2 differs plain

theorem harmless_fixed (h : line ∈ phrases) : Harmless context (line ++ ['\n']) :=
  harmless_phrase h (by decide) (by decide)

theorem harmless_name_mark (name : n.IsName) (mark : isInner c = false) (differs : c ≠ '-') :
    Harmless context (n ++ [c]) :=
  harmless_name (g := []) name.word (by simp) mark differs

theorem harmless_ending (blank : ∀ d ∈ b, isBlank d = true) (mark : isInner c = false) (differs : c ≠ '-') :
    Harmless context (b ++ [c]) :=
  harmless_name (w := []) (by simp) blank mark differs

theorem harmless_typed (type : n.IsName) {range : Option Text} (within : ∀ w ∈ range, RangeWithin context w)
    (written : x = n ∨ ∃ w ∈ range, x = ranged n w) (blank : ∀ d ∈ b, isBlank d = true) (mark : isInner c = false)
    (differs : c ≠ '-') : Harmless context (x ++ (b ++ [c])) := by
  rcases written with rfl | ⟨w, known, rfl⟩
  · exact harmless_name type.word blank mark differs
  · have opening : Harmless context (n ++ ['(']) := harmless_name_mark type (by decide) (by decide)
    have inside : Harmless context (w ++ [')']) :=
      harmless_part (within w known).commentFree (within w known).asks (by decide) (by decide) (by decide)
    have tail : Harmless context (b ++ [c]) := harmless_ending blank mark differs
    have split : ranged n w ++ (b ++ [c]) = (n ++ ['(']) ++ ((w ++ [')']) ++ (b ++ [c])) := by
      simp [ranged]
    rw [split]
    exact opening.append (inside.append tail)

theorem PortWithin.harmless_subtype (within : PortWithin context p) (blank : ∀ d ∈ b, isBlank d = true)
    (mark : isInner c = false) (differs : c ≠ '-') : Harmless context (portSubtype p ++ (b ++ [c])) := by
  refine harmless_typed within.dataType within.width ?_ blank mark differs
  rw [portSubtype]
  split
  · rename_i first rest range
    split
    · exact .inl rfl
    · exact .inr ⟨_, range, rfl⟩
  · exact .inl rfl

theorem GenericWithin.harmless_subtype (within : GenericWithin context g) (blank : ∀ d ∈ b, isBlank d = true)
    (mark : isInner c = false) (differs : c ≠ '-') : Harmless context (genericSubtype g ++ (b ++ [c])) := by
  obtain ⟨type, dataType, name⟩ := within.dataType
  refine harmless_typed name within.width ?_ blank mark differs
  rw [genericSubtype, dataType]
  split
  · rename_i first rest range
    exact .inr ⟨_, range, rfl⟩
  · exact .inl rfl

theorem harmless_declared (name : n.IsName) : Harmless context (n ++ " : ".toList) := by
  have colon : Harmless context (n ++ ([' '] ++ [':'])) := harmless_name name.word (by decide) (by decide) (by decide)
  have space : Harmless context [' '] := harmless_separator (by decide) (by decide)
  have split : n ++ " : ".toList = (n ++ ([' '] ++ [':'])) ++ [' '] := by simp
  rw [split]
  exact colon.append space

theorem harmless_value (free : ¬ ['-', '-'] <:+: v) (clauses : ClauseFree v) (blank : ∀ d ∈ b, isBlank d = true)
    (mark : isInner c = false) (differs : c ≠ '-') : Harmless context (v ++ (b ++ [c])) := by
  cases b with
  | nil =>
      rw [isInner, isSelected, Bool.or_eq_false_iff, Bool.or_eq_false_iff] at mark
      exact harmless_plain free clauses differs mark.1.1
  | cons d b =>
      have space := blank d (by simp)
      have noDash : d ≠ '-' := by
        rintro rfl
        exact absurd space (by decide)
      have split : v ++ (d :: b ++ [c]) = (v ++ [d]) ++ (b ++ [c]) := by simp
      rw [split]
      exact (harmless_plain free clauses noDash (isWord_of_isBlank space)).append
        (harmless_ending (fun e he => blank e (by simp [he])) mark differs)

theorem GenericWithin.harmless_declaration (within : GenericWithin context g) (blank : ∀ d ∈ b, isBlank d = true)
    (mark : isInner c = false) (differs : c ≠ '-') : Harmless context (genericDeclaration g ++ (b ++ [c])) := by
  have margin : Harmless context "    ".toList := harmless_separator (by decide) (by decide)
  have declared : Harmless context ("    ".toList ++ (g.name ++ " : ".toList)) :=
    margin.append (harmless_declared within.name)
  unfold genericDeclaration
  split
  · rename_i v default
    obtain ⟨free, clauses⟩ := within.default v default
    have colon : Harmless context (genericSubtype g ++ ([' '] ++ [':'])) :=
      within.harmless_subtype (by decide) (by decide) (by decide)
    have equals : Harmless context "= ".toList := harmless_separator (by decide) (by decide)
    have whole := declared.append (colon.append (equals.append (harmless_value free clauses blank mark differs)))
    simpa using whole
  · have whole := declared.append (within.harmless_subtype blank mark differs)
    simpa using whole

theorem PortWithin.harmless_declaration (within : PortWithin context p) (blank : ∀ d ∈ b, isBlank d = true)
    (mark : isInner c = false) (differs : c ≠ '-') : Harmless context (portDeclaration p ++ (b ++ [c])) := by
  have margin : Harmless context "    ".toList := harmless_separator (by decide) (by decide)
  have mode : Harmless context (modeKeyword p.direction ++ [' ']) := by
    cases p.direction with
    | input | output | inout =>
        exact harmless_phrase (by decide) (by decide) (by decide)
  have whole := margin.append ((harmless_declared within.name).append (mode.append
    (within.harmless_subtype blank mark differs)))
  unfold portDeclaration
  simpa using whole

theorem GenericWithin.harmless_constantLine (within : GenericWithin context g) (h : constantLine g = some line) :
    Harmless context (line ++ ['\n']) := by
  unfold constantLine at h
  obtain ⟨v, default, rfl⟩ := Option.map_eq_some_iff.mp h
  obtain ⟨free, clauses⟩ := within.default v default
  have keyword : Harmless context ("  constant".toList ++ [' ']) :=
    harmless_phrase (by decide) (by decide) (by decide)
  have colon : Harmless context (genericSubtype g ++ ([' '] ++ [':'])) :=
    within.harmless_subtype (by decide) (by decide) (by decide)
  have equals : Harmless context "= ".toList := harmless_separator (by decide) (by decide)
  have value : Harmless context (v ++ [';']) := harmless_plain free clauses (by decide) (by decide)
  have whole := keyword.append ((harmless_declared within.name).append (colon.append (equals.append
    (value.append harmless_lineFeed))))
  simpa using whole

theorem PortWithin.harmless_signalLine (within : PortWithin context p) :
    Harmless context (signalLine p ++ ['\n']) := by
  have keyword : Harmless context ("  signal".toList ++ [' ']) :=
    harmless_phrase (by decide) (by decide) (by decide)
  have type : Harmless context (portSubtype p ++ ([] ++ [';'])) :=
    within.harmless_subtype (by simp) (by decide) (by decide)
  have whole := keyword.append ((harmless_declared within.name).append (type.append harmless_lineFeed))
  unfold signalLine
  simpa using whole

theorem PortWithin.harmless_assignment (within : PortWithin context p) {bit : Text} (known : bit = "0" ∨ bit = "1") :
    Harmless context (assignment p bit ++ ['\n']) := by
  have margin : Harmless context "    ".toList := harmless_separator (by decide) (by decide)
  have target : Harmless context (p.name ++ ([' '] ++ ['<'])) :=
    harmless_name within.name.word (by decide) (by decide) (by decide)
  have equals : Harmless context "= ".toList := harmless_separator (by decide) (by decide)
  have literal : Harmless context (aggregate p bit ++ [';']) := by
    unfold aggregate
    rcases known with rfl | rfl
    all_goals
      split
      · exact harmless_phrase (by decide) (by decide) (by decide)
      · exact harmless_phrase (by decide) (by decide) (by decide)
  have whole := margin.append (target.append (equals.append (literal.append harmless_lineFeed)))
  unfold assignment
  simpa using whole

theorem harmless_association (name : n.IsName) (blank : ∀ d ∈ b, isBlank d = true) (mark : isInner c = false)
    (differs : c ≠ '-') : Harmless context (association n n ++ (b ++ [c])) := by
  have margin : Harmless context "    ".toList := harmless_separator (by decide) (by decide)
  have formal : Harmless context (n ++ ([' '] ++ ['='])) := harmless_name name.word (by decide) (by decide) (by decide)
  have arrow : Harmless context "> ".toList := harmless_separator (by decide) (by decide)
  have whole := margin.append (formal.append (arrow.append (harmless_name name.word blank mark differs)))
  unfold association
  simpa using whole

/-- Parts with a mark between neighbours, each on a line of its own, up to the parenthesis that closes them. -/
theorem harmless_punctuate (nonempty : parts ≠ []) (mark : isInner c = false) (differs : c ≠ '-')
    (h : ∀ part ∈ parts, ∀ b d, (∀ e ∈ b, isBlank e = true) → isInner d = false → d ≠ '-' →
      Harmless context (part ++ (b ++ [d]))) :
    Harmless context ((punctuate [c] parts).flatMap (· ++ ['\n']) ++ "  )".toList) := by
  fun_induction punctuate [c] parts with
  | case1 => exact absurd rfl nonempty
  | case2 part =>
      have closing := h part (by simp) "\n  ".toList ')' (by decide) (by decide) (by decide)
      simpa using closing
  | case3 part rest more ih =>
      have first := h part (by simp) [] c (by simp) mark differs
      have others := ih (by simpa using more) fun part hp => h part (by simp [hp])
      have whole := first.append (harmless_lineFeed.append others)
      simpa using whole

theorem harmless_clause {opening : Text} (front : Harmless context (opening ++ ['\n']))
    (h : ∀ part ∈ parts, ∀ b d, (∀ e ∈ b, isBlank e = true) → isInner d = false → d ≠ '-' →
      Harmless context (part ++ (b ++ [d]))) :
    Harmless context ((declarationClause opening parts).flatMap (· ++ ['\n'])) := by
  rw [declarationClause]
  split
  · exact harmless_nil
  · rename_i nonempty
    have listed := harmless_punctuate (c := ';') (by simpa using nonempty) (by decide) (by decide) h
    have ending : Harmless context ";\n".toList := harmless_separator (by decide) (by decide)
    have whole := front.append (listed.append ending)
    simpa using whole

theorem exists_visible_clauses (generics ports : List Text) : ∃ b c s,
    (declarationClause "  generic (" generics).flatMap (· ++ ['\n']) ++
      ((declarationClause "  port (" ports).flatMap (· ++ ['\n']) ++ "end component;".toList) = b ++ c :: s ∧
      (∀ d ∈ b, isBlank d = true) ∧ isBlank c = false ∧ c ≠ ';' := by
  have clause : ∀ (opening : Text) declarations s, declarations ≠ [] →
      (declarationClause opening declarations).flatMap (· ++ ['\n']) ++ s =
        opening ++ (['\n'] ++ ((punctuate ";" declarations ++ ["  );".toList]).flatMap (· ++ ['\n']) ++ s)) := by
    intro opening declarations s nonempty
    rw [declarationClause, if_neg (by simpa using nonempty)]
    simp
  by_cases noGenerics : generics = []
  · by_cases noPorts : ports = []
    · subst noGenerics noPorts
      exact ⟨[], 'e', _, rfl, by simp, by decide, by decide⟩
    · rw [clause _ ports _ noPorts, noGenerics]
      exact ⟨"  ".toList, 'p', _, rfl, by decide, by decide, by decide⟩
  · rw [clause _ generics _ noGenerics]
    exact ⟨"  ".toList, 'g', _, rfl, by decide, by decide, by decide⟩

theorem harmless_component_name (name : n.IsName) (rest : Harmless context x)
    (visible : ∃ b c s, x = b ++ c :: s ∧ (∀ d ∈ b, isBlank d = true) ∧ isBlank c = false ∧ c ≠ ';') :
    Harmless context (n ++ (" is\n".toList ++ x)) := by
  have space : Harmless context [' '] := harmless_separator (by decide) (by decide)
  have keyword : Harmless context ("is".toList ++ ['\n']) := harmless_fixed (by decide)
  have opening : Harmless context " is\n".toList := space.append keyword
  refine harmless_word_append name.word (fun kind m s => ?_) (opening.append rest)
  obtain ⟨b, c, r, rfl, blank, visible, other⟩ := visible
  have refused : ¬ kind.Begins m (n ++ ([' '] ++ ("is".toList ++ (('\n' :: b) ++ c :: (r ++ s))))) :=
    ClauseKind.not_begins_words name.word (by simp) (by decide) (by decide) (by decide) (by simp)
      (List.forall_mem_cons.mpr ⟨by decide, blank⟩) visible other
  simpa using refused

/-- What follows the opening of a component. -/
def componentBody (unit : Interface) : Text :=
  (declarationClause "  generic (" (unit.generics.map genericDeclaration)).flatMap (· ++ ['\n']) ++
    ((declarationClause "  port (" (unit.ports.map portDeclaration)).flatMap (· ++ ['\n']) ++ "end component;")

theorem component_eq (unit : Interface) :
    component unit = "component ".toList ++ (unit.name ++ (" is\n".toList ++ componentBody unit)) := by
  have newline : " is\n".toList = " is".toList ++ ['\n'] := by decide
  unfold component componentBody
  rw [List.flatten_cons, List.flatten_cons, List.flatten_cons, List.flatten_cons, List.flatten_nil, List.append_nil,
    ← List.append_assoc, ← List.append_assoc, joinLines_append_singleton, newline]
  simp only [List.flatMap_append, List.flatMap_singleton, List.append_assoc]

theorem harmless_component (within : InterfaceWithin context unit) : Harmless context (component unit) := by
  have keyword : Harmless context "component ".toList :=
    harmless_phrase (x := "component".toList) (by decide) (by decide) (by decide)
  have generics : Harmless context ((declarationClause "  generic (" (unit.generics.map genericDeclaration)).flatMap
      (· ++ ['\n'])) := by
    refine harmless_clause (harmless_fixed (by decide)) ?_
    rw [List.forall_mem_map]
    exact fun g hg b d blank mark differs => (within.generics g hg).harmless_declaration blank mark differs
  have ports : Harmless context ((declarationClause "  port (" (unit.ports.map portDeclaration)).flatMap
      (· ++ ['\n'])) := by
    refine harmless_clause (harmless_fixed (by decide)) ?_
    rw [List.forall_mem_map]
    exact fun p hp b d blank mark differs => (within.ports p hp).harmless_declaration blank mark differs
  have ending : Harmless context "end component;".toList :=
    harmless_phrase (x := "end component".toList) (by decide) (by decide) (by decide)
  rw [component_eq]
  exact keyword.append (harmless_component_name within.name (generics.append (ports.append ending))
    (exists_visible_clauses _ _))

theorem getLast?_component (unit : Interface) : (component unit).getLast? = some ';' := by
  have ending : component unit = "component ".toList ++ (unit.name ++ (" is\n".toList ++
      ((declarationClause "  generic (" (unit.generics.map genericDeclaration)).flatMap (· ++ ['\n']) ++
        (declarationClause "  port (" (unit.ports.map portDeclaration)).flatMap (· ++ ['\n'])))) ++
      "end component;".toList := by
    rw [component_eq, componentBody]
    simp only [List.append_assoc]
  rw [ending, List.getLast?_append_of_ne_nil _ (by decide)]
  decide

def mapText (kind : Text) (names : List Text) : Text :=
  "  ".toList ++ (kind ++ (" map (\n".toList ++
    ((punctuate ",".toList (names.map fun n => association n n)).flatMap (· ++ ['\n']) ++ "  )".toList)))

def mapKinds : List Text :=
  ["generic", "port"]

theorem harmless_mapText {kind : Text} {names : List Text} (known : kind ∈ mapKinds) (nonempty : names ≠ [])
    (isName : ∀ n ∈ names, n.IsName) : Harmless context (mapText kind names) := by
  have margin : Harmless context "  ".toList := harmless_separator (by decide) (by decide)
  have phrase : ∀ kind ∈ mapKinds, kind ++ " map".toList ∈ phrases := by decide
  have opening : Harmless context (kind ++ " map".toList ++ [' ']) :=
    harmless_phrase (phrase kind known) (by decide) (by decide)
  have bracket : Harmless context "(\n".toList := harmless_separator (by decide) (by decide)
  have listed : Harmless context ((punctuate [','] (names.map fun n => association n n)).flatMap (· ++ ['\n']) ++
      "  )".toList) := by
    refine harmless_punctuate (by simpa using nonempty) (by decide) (by decide) ?_
    rw [List.forall_mem_map]
    exact fun n hn b d blank mark differs => harmless_association (isName n hn) blank mark differs
  have whole := margin.append (opening.append (bracket.append listed))
  have split : mapText kind names = "  ".toList ++ ((kind ++ " map".toList ++ [' ']) ++ ("(\n".toList ++
      ((punctuate [','] (names.map fun n => association n n)).flatMap (· ++ ['\n']) ++ "  )".toList))) := by
    have words : " map (\n".toList = " map".toList ++ ([' '] ++ "(\n".toList) := by decide
    unfold mapText
    rw [words]
    simp only [List.append_assoc]
    rfl
  rw [split]
  exact whole

/-- The names of the generics that have a constant. -/
def constantNames (unit : Interface) : List Text :=
  (unit.generics.filter (·.default.isSome)).map (·.name)

def maps (unit : Interface) : List Text :=
  (if (constantNames unit).isEmpty then [] else [mapText "generic" (constantNames unit)]) ++
    if unit.ports.isEmpty then [] else [mapText "port" (unit.ports.map (·.name))]

/-- The lines of a map with what follows its last parenthesis. -/
def mapLines (kind : Text) (names : List Text) (closing : Text) : List Text :=
  ("  ".toList ++ kind ++ " map (".toList) :: (punctuate "," (names.map fun n => association n n) ++
    ["  )".toList ++ closing])

theorem joinLines_mapLines (kind : Text) (names : List Text) (closing : Text) :
    joinLines (mapLines kind names closing) = mapText kind names ++ closing := by
  have newline : " map (\n".toList = " map (".toList ++ ['\n'] := by decide
  unfold mapLines mapText
  rw [← List.cons_append, joinLines_append_singleton, List.flatMap_cons, newline]
  simp only [List.append_assoc]

theorem mapLines_ne_nil (kind : Text) (names : List Text) (closing : Text) : mapLines kind names closing ≠ [] :=
  List.cons_ne_nil _ _

theorem unitUnderTest_eq (unit : Interface) : unitUnderTest unit =
    "uut: ".toList ++ (unit.name ++ ((maps unit).flatMap ('\n' :: ·) ++ [';'])) := by
  have values : ((unit.generics.filter (·.default.isSome)).map fun g => (g.name, g.name)).map
      (fun v => association v.1 v.2) = (constantNames unit).map fun n => association n n := by
    simp [constantNames]
  have ports : (unit.ports.map fun p => association p.name p.name) =
      (unit.ports.map (·.name)).map fun n => association n n := by
    simp
  have none : ((unit.generics.filter (·.default.isSome)).map fun g => (g.name, g.name)).isEmpty =
      (constantNames unit).isEmpty := by
    simp [constantNames]
  have labelled (lines : List Text) (nonempty : lines ≠ []) : joinLines (("uut: ".toList ++ unit.name) :: lines) =
      "uut: ".toList ++ (unit.name ++ '\n' :: joinLines lines) := by
    rw [← List.singleton_append, joinLines_append (by simp) nonempty, joinLines_singleton, List.append_assoc]
  unfold unitUnderTest instantiation maps
  dsimp only
  rw [map_association, values, ports, none]
  cases (constantNames unit).isEmpty with
  | true =>
      cases unit.ports.isEmpty with
      | true => simp [joinLines_singleton]
      | false =>
          have split := labelled _ (mapLines_ne_nil "port" (unit.ports.map (·.name)) [';'])
          rw [joinLines_mapLines] at split
          simpa [mapLines] using split
  | false =>
      cases unit.ports.isEmpty with
      | true =>
          have split := labelled _ (mapLines_ne_nil "generic" (constantNames unit) [';'])
          rw [joinLines_mapLines] at split
          simpa [mapLines] using split
      | false =>
          have both := joinLines_append (mapLines_ne_nil "generic" (constantNames unit) [])
            (mapLines_ne_nil "port" (unit.ports.map (·.name)) [';'])
          have split := labelled _ (List.append_ne_nil_of_left_ne_nil
            (mapLines_ne_nil "generic" (constantNames unit) []) (mapLines "port" (unit.ports.map (·.name)) [';']))
          rw [both, joinLines_mapLines, joinLines_mapLines] at split
          simpa [mapLines] using split

/-- A map of names. -/
def IsMap (m : Text) : Prop :=
  ∃ kind ∈ mapKinds, ∃ names, names ≠ [] ∧ (∀ n ∈ names, n.IsName) ∧ m = mapText kind names

theorem isMap_of_mem_maps (within : InterfaceWithin context unit) {m : Text} (h : m ∈ maps unit) : IsMap m := by
  have values : ∀ n ∈ constantNames unit, n.IsName := by
    rw [constantNames, List.forall_mem_map]
    exact fun g hg => (within.generics g (List.mem_of_mem_filter hg)).name
  have ports : ∀ n ∈ unit.ports.map (·.name), n.IsName := by
    rw [List.forall_mem_map]
    exact fun p hp => (within.ports p hp).name
  rw [maps] at h
  rcases List.mem_append.mp h with h | h
  · split at h
    · cases h
    · rename_i nonempty
      exact ⟨_, by decide, _, by simpa using nonempty, values, List.mem_singleton.mp h⟩
  · split at h
    · cases h
    · rename_i nonempty
      exact ⟨_, by decide, _, by simpa using nonempty, ports, List.mem_singleton.mp h⟩

theorem harmless_maps {ms : List Text} (h : ∀ m ∈ ms, IsMap m) :
    Harmless context (ms.flatMap ('\n' :: ·) ++ [';']) := by
  induction ms with
  | nil => exact harmless_separator (by decide) (by decide)
  | cons m ms ih =>
      obtain ⟨kind, known, names, nonempty, isName, rfl⟩ := h m (by simp)
      have whole := harmless_lineFeed.append ((harmless_mapText known nonempty isName).append
        (ih fun m hm => h m (by simp [hm])))
      simpa using whole

theorem mapText_eq (kind : Text) (names : List Text) : ∃ s, mapText kind names = "  ".toList ++ (kind ++ ' ' :: 'm' :: s) := by
  have words : " map (\n".toList = ' ' :: 'm' :: "ap (\n".toList := by decide
  unfold mapText
  rw [words]
  exact ⟨_, rfl⟩

theorem not_begins_instance {kind : ClauseKind} (name : n.IsName) {ms : List Text} (h : ∀ m ∈ ms, IsMap m) (s : Text) :
    ¬ kind.Begins v (n ++ (ms.flatMap ('\n' :: ·) ++ [';'] ++ s)) := by
  cases ms with
  | nil => exact ClauseKind.not_begins_mark (g := []) name.word (by simp) (by decide)
  | cons m ms =>
      obtain ⟨kind', known, names, -, -, rfl⟩ := h m (by simp)
      obtain ⟨r, split⟩ := mapText_eq kind' names
      have plain : ∀ kind ∈ mapKinds, kind ≠ [] ∧ ∀ c ∈ kind, Text.isWord c = true := by decide
      have refused : ¬ kind.Begins v (n ++ ("\n  ".toList ++ (kind' ++ ([' '] ++ 'm' ::
          (r ++ (ms.flatMap ('\n' :: ·) ++ [';'] ++ s)))))) :=
        ClauseKind.not_begins_words name.word (by decide) (by decide) (plain kind' known).1 (plain kind' known).2
          (by decide) (by decide) (by decide) (by decide)
      simpa [split] using refused

theorem harmless_unitUnderTest (within : InterfaceWithin context unit) :
    Harmless context (unitUnderTest unit) := by
  have label : Harmless context "uut: ".toList :=
    have word : Harmless context ("uut".toList ++ [':']) :=
      harmless_phrase (by decide) (by decide) (by decide)
    word.append (harmless_separator (x := [' ']) (by decide) (by decide))
  have known : ∀ m ∈ maps unit, IsMap m := fun m hm => isMap_of_mem_maps within hm
  rw [unitUnderTest_eq]
  exact label.append (harmless_word_append within.name.word (fun kind m s => not_begins_instance within.name known s)
    (harmless_maps known))

theorem getLast?_unitUnderTest (unit : Interface) : (unitUnderTest unit).getLast? = some ';' := by
  rw [unitUnderTest_eq, ← List.append_assoc, ← List.append_assoc, List.getLast?_concat]

theorem harmless_indented (h : Harmless context x) (ends : x.getLast? = some ';') :
    Harmless context ("  ".toList ++ indentRest "  " x ++ ['\n']) := by
  have margin : Harmless context "  ".toList := harmless_separator (by decide) (by decide)
  have respaced : Respaced x (indentRest "  " x) := respaced_indentRest (by decide) (by simp [ends])
  exact (margin.append (h.of_respaced ends respaced)).append harmless_lineFeed

end Pinout.Vhdl
