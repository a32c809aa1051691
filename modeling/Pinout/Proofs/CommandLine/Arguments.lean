import Pinout.CommandLine.Invocation
import Pinout.Proofs.Extraction

/-! # An output file in front of the arguments

Naming an output file in front of arguments that name none changes nothing else of what they ask for. Reading goes from
left to right and a flag in front only stands behind the flags that are read later.
-/

namespace Pinout.CommandLine

variable {scope : Scope} {arguments : List RawText} {path : RawText} {i : Invocation}

namespace Reading

/-- The reading with flags that were given before. -/
def behind (r : Reading) (given : List (Flag × Option RawText)) : Reading :=
  { r with given := r.given ++ given }

variable (r : Reading) (given : List (Flag × Option RawText))

theorem operands_behind : (r.behind given).operands = r.operands :=
  rfl

theorem leave_behind (argument : RawText) : (r.behind given).leave argument = (r.leave argument).behind given :=
  rfl

theorem note_behind (flag : Flag) (value : Option RawText) : (r.behind given).note flag value = (r.note flag value).behind given :=
  rfl

theorem giveAll_behind (flags : List Flag) :
    (r.behind given).giveAll scope flags = (·.behind given) <$> r.giveAll scope flags := by
  induction flags generalizing r with
  | nil => rfl
  | cons flag flags ih =>
      rw [giveAll, giveAll, give, give, note_behind]
      split
      · rfl
      · exact ih _

theorem giveValue_behind (flag : Flag) (value : RawText) :
    (r.behind given).giveValue scope flag value = (·.behind given) <$> r.giveValue scope flag value := by
  rw [giveValue, giveValue]
  split
  · rfl
  · cases flag.takes with
    | nothing | anything => rfl
    | oneOf choices =>
        dsimp only
        split <;> rfl

end Reading

open Reading

theorem Scope.read_behind (words : List (RawText × Word)) (r : Reading) (given : List (Flag × Option RawText)) :
    scope.read words (r.behind given) = (·.behind given) <$> scope.read words r := by
  fun_induction Scope.read scope words r
  case case1 | case12 => rfl
  case case2 ih => rw [Scope.read, leave_behind, ih]
  case case3 refused => simp only [Scope.read, refused]; rfl
  case case4 spelled ih => simp only [Scope.read, spelled, giveAll_behind, bind_map_left, map_bind, ih]
  case case5 spelled ih | case6 spelled _ _ ih =>
    simp only [Scope.read, spelled, giveAll_behind, giveValue_behind, bind_map_left, map_bind, ih]
  case case7 spelled alone => simp only [Scope.read, spelled]; rfl
  case case8 program | case13 program => simp only [Scope.read, program, if_true]; rfl
  case case9 command free _ _ _ ih | case14 command free ih =>
    rw [← ih, Scope.read, if_neg command, operands_behind, if_pos free]; rfl
  case case10 command free _ _ alone ih =>
    simp only [← ih, Scope.read, if_neg command, operands_behind, if_pos free]; rfl
  case case11 command taken ih | case15 command taken ih =>
    rw [Scope.read, if_neg command, operands_behind, if_neg taken, leave_behind, ih]

/-- The arguments do not name an output file. -/
def OmitsOutput (arguments : List RawText) : Prop :=
  ∀ r, Scope.program.readAll arguments = .ok r → r.has .output = false

/-- What names an output file in front of other arguments. A path in an argument of its own must not look like a flag. -/
def outputSpellings (path : RawText) : List (List RawText) :=
  [Text.raw "--output=" ++ path] :: if path.head? = some (.char '-') then [] else [[Text.raw "--output", path]]

theorem word_output_equals (path : RawText) :
    Scope.program.word (Text.raw "--output=" ++ path) = .ok (.flag ⟨.output, true, some path⟩) :=
  rfl

theorem word_output : Scope.program.word (Text.raw "--output") = .ok (.flag ⟨.output, true, none⟩) :=
  rfl

theorem spread_output (path : RawText) :
    (⟨.output, true, some path⟩ : Spelling).spread .program = .ok ([], .valued .output path) := by
  cases path <;> rfl

theorem giveValue_output (plain : path ≠ operandMark) :
    Reading.giveValue .program {} .output path = .ok (behind {} [(.output, some path)]) := by
  rw [giveValue, if_neg plain]
  rfl

theorem words_cons {argument : RawText} {word : Word} (plain : argument ≠ operandMark) (h : scope.word argument = .ok word)
    (rest : List RawText) : scope.words (argument :: rest) = ((argument, word) :: ·) <$> scope.words rest := by
  rw [Scope.words, if_neg plain, h]
  cases scope.words rest <;> rfl

/-- Arguments behind others are read as they are alone, but for the flags that those in front have given. -/
theorem readAll_front {front : List RawText} {shown : List (RawText × Word)} {given : List (Flag × Option RawText)}
    (told : scope.words (front ++ arguments) = (shown ++ ·) <$> scope.words arguments)
    (taken : ∀ rest, scope.read (shown ++ rest) {} = scope.read rest (behind {} given)) :
    scope.readAll (front ++ arguments) = (·.behind given) <$> scope.readAll arguments := by
  rw [Scope.readAll, Scope.readAll, told]
  cases scope.words arguments with
  | error refusal => rfl
  | ok rest => exact (taken rest).trans (Scope.read_behind rest {} _)

theorem readAll_output (plain : path ≠ operandMark) (arguments : List RawText) : ∀ front ∈ outputSpellings path,
    Scope.program.readAll (front ++ arguments) =
      (·.behind [(.output, some path)]) <$> Scope.program.readAll arguments := by
  intro front spelled
  rcases List.mem_cons.mp spelled with rfl | apart
  · have attached : Text.raw "--output=" ++ path ≠ operandMark := nofun
    have told : Scope.program.words ([Text.raw "--output=" ++ path] ++ arguments) =
        ([(Text.raw "--output=" ++ path, .flag ⟨.output, true, some path⟩)] ++ ·) <$> Scope.program.words arguments :=
      words_cons attached (word_output_equals path) arguments
    refine readAll_front told fun rest => ?_
    rw [List.singleton_append, Scope.read, spread_output]
    exact congrArg (· >>= Scope.program.read rest) (giveValue_output plain)
  · split at apart
    · cases apart
    · next operand =>
        obtain rfl := List.mem_singleton.mp apart
        have value : Scope.program.word path = .ok .operand := by rw [Scope.word, if_pos operand]
        have told : Scope.program.words (Text.raw "--output" :: path :: arguments) =
            ([(Text.raw "--output", .flag ⟨.output, true, none⟩), (path, .operand)] ++ ·) <$>
              Scope.program.words arguments := by
          have named : Text.raw "--output" ≠ operandMark := by decide
          rw [words_cons named word_output, words_cons plain value, Functor.map_map]
          rfl
        refine readAll_front told fun rest => ?_
        exact congrArg (· >>= Scope.program.read rest) (giveValue_output plain)

theorem lookup_behind {flag : Flag} (r : Reading) (value : Option RawText) (other : flag ≠ .output) :
    (r.behind [(.output, value)]).given.lookup flag = r.given.lookup flag := by
  rw [behind, List.lookup_append]
  simp [List.lookup_cons, beq_eq_false_iff_ne.mpr other]

theorem has_behind {flag : Flag} (r : Reading) (value : Option RawText) (other : flag ≠ .output) :
    (r.behind [(.output, value)]).has flag = r.has flag := by
  rw [has, has, lookup_behind r value other]

theorem setting_behind {flag : Flag} (r : Reading) (value : Option RawText) (other : flag ≠ .output) :
    (r.behind [(.output, value)]).setting flag = r.setting flag := by
  rw [setting, setting, lookup_behind r value other]

theorem lookup_output {r : Reading} (omitted : r.has .output = false) : r.given.lookup .output = none := by
  rwa [has, Option.isSome_eq_false_iff, Option.isNone_iff_eq_none] at omitted

theorem setting_output {r : Reading} (omitted : r.has .output = false) : r.setting .output = .unset := by
  rw [setting, lookup_output omitted]

theorem setting_output_behind {r : Reading} (omitted : r.has .output = false) (path : RawText) :
    (r.behind [(.output, some path)]).setting .output = .value path := by
  rw [setting, behind, List.lookup_append, lookup_output omitted]
  rfl

/-- Reading leaves nothing over, and the operands ask for this task. -/
inductive Reading.Asks (r : Reading) : Option Task → Prop
  | nothing (taken : r.unrecognized = []) (operands : r.operands = []) : r.Asks none
  | task {word : RawText} {rest : List RawText} {command : Command} {t : Task} (taken : r.unrecognized = [])
      (operands : r.operands = word :: rest) (named : Command.all.find? (Text.raw ·.name = word) = some command)
      (read : Task.ofArguments command rest = .ok (t, [])) : r.Asks (some t)

/-- The invocation with the flags that were read. -/
def Invocation.ofReading (r : Reading) (task : Option Task) : Invocation where
  dialect := (r.setting .dialect).filterMap fun tag => Dialect.all.find? (Text.raw ·.tag = tag)
  output := (r.setting .output).value?
  verbose := r.has .verbose
  task := task

theorem eq_ofReading {r : Reading} {task : Option Task} {left : List RawText} {halt : Halt}
    (made : (if left.isEmpty then .ok (.ofReading r task) else .error halt) = Except.ok i) :
    left = [] ∧ i = .ofReading r task := by
  split at made
  · next none => exact ⟨List.isEmpty_iff.mp none, (Except.ok.inj made).symm⟩
  · cases made

theorem ofArguments_eq_ok_iff : Invocation.ofArguments arguments = .ok i ↔
    ∃ r task, Scope.program.readAll arguments = .ok r ∧ r.Asks task ∧ i = .ofReading r task := by
  refine ⟨fun asked => ?_, fun ⟨r, task, read, asks, same⟩ => ?_⟩
  · obtain ⟨r, read, asked⟩ := Extraction.exists_of_bind_eq_ok asked
    dsimp only at asked
    split at asked
    · next operands =>
        obtain ⟨taken, same⟩ := eq_ofReading asked
        exact ⟨r, none, read, .nothing taken operands, same⟩
    · next word rest operands =>
        split at asked
        · cases asked
        · next command named =>
            obtain ⟨⟨t, left⟩, asks, asked⟩ := Extraction.exists_of_bind_eq_ok asked
            obtain ⟨taken, same⟩ := eq_ofReading asked
            obtain ⟨taken', rfl⟩ := List.append_eq_nil_iff.mp taken
            exact ⟨r, some t, read, .task taken' operands named asks, same⟩
  · rw [Invocation.ofArguments, read, same]
    cases asks with
    | nothing taken operands => simp [bind, Except.bind, taken, operands]; rfl
    | task taken operands named asks => simp [bind, Except.bind, taken, operands, named, asks]; rfl

theorem output_eq_none (omits : OmitsOutput arguments) (asked : Invocation.ofArguments arguments = .ok i) :
    i.output = none := by
  obtain ⟨r, task, read, -, rfl⟩ := ofArguments_eq_ok_iff.mp asked
  exact congrArg Setting.value? (setting_output (omits r read))

/-- An output file named in front of arguments that name none is all that it adds to what they ask for. -/
theorem ofArguments_output (omits : OmitsOutput arguments) (asked : Invocation.ofArguments arguments = .ok i)
    (plain : path ≠ operandMark) : ∀ front ∈ outputSpellings path,
      Invocation.ofArguments (front ++ arguments) = .ok { i with output := some path } := by
  intro front spelled
  obtain ⟨r, task, read, asks, rfl⟩ := ofArguments_eq_ok_iff.mp asked
  refine ofArguments_eq_ok_iff.mpr ⟨r.behind [(.output, some path)], task, ?_, ?_, ?_⟩
  · rw [readAll_output plain arguments front spelled, read]
    rfl
  · cases asks with
    | nothing taken operands => exact .nothing taken operands
    | task taken operands named read => exact .task taken operands named read
  · have dialect : (r.behind [(.output, some path)]).setting .dialect = r.setting .dialect := setting_behind r _ nofun
    have verbose : (r.behind [(.output, some path)]).has .verbose = r.has .verbose := has_behind r _ nofun
    rw [Invocation.ofReading, Invocation.ofReading, setting_output_behind (omits r read), dialect, verbose]
    rfl

end Pinout.CommandLine
