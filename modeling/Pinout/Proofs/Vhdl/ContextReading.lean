import Pinout.Proofs.Vhdl.Rereading
import Pinout.Proofs.Vhdl.Surroundings
import Pinout.Vhdl.Testbench

/-! # Written contexts

The clauses of a context are written each on a line of its own, in front of everything else. A reader
finds them in the order in which they are written, and what follows them adds nothing if it asks for
nothing beyond them. No entity opens among them, whatever the names are.
-/

namespace Pinout.Vhdl

open Text

variable {c : Char} {code n s x y : Text} {names : List Text} {given : Context} {kind : ClauseKind}
  {before : Option Char} {q k : Pattern}

def clauseLine (kind : ClauseKind) (n : Text) : Text :=
  kind.keyword ++ ([' '] ++ (n ++ [';'])) ++ ['\n']

/-- A text that a clause can ask for. -/
structure ClauseKind.IsAskable (kind : ClauseKind) (n : Text) : Prop where
  nonempty : n ≠ []
  accepted : ∀ c ∈ n, kind.accepts c = true

theorem ContextFrom.isAskable (h : ContextFrom code given) (kind : ClauseKind) :
    ∀ n ∈ given.names kind, kind.IsAskable n := by
  cases kind with
  | library => exact fun n hn => ⟨(h.libraries n hn).nonempty, (h.libraries n hn).word⟩
  | use => exact fun n hn => ⟨(h.packages n hn).1, (h.packages n hn).2⟩

theorem isClause_of_isAskable (h : kind.IsAskable n) : kind.IsClause n (kind.keyword ++ ([' '] ++ (n ++ [';']))) := by
  have spells : Pattern.Spells kind.keyword kind.keyword := by
    cases kind with
    | library | use => exact Spelling.spells ⟨_, by decide⟩
  exact .mk (h := []) spells (by simp) (by decide) h.nonempty h.accepted (by simp)

theorem inner_clauseLine (h : kind.IsAskable n) : ∀ c ∈ clauseLine kind n, isInner c = true ∨ c = ';' := by
  intro c hc
  rw [clauseLine, List.mem_append, List.mem_singleton] at hc
  rcases hc with hc | rfl
  · obtain ⟨y, split, inner⟩ := (isClause_of_isAskable h).exists_inner
    rw [split, List.mem_append, List.mem_singleton] at hc
    exact hc.imp_left (inner c)
  · exact .inl (by decide)

theorem passes_clauseLine (led : q.LedBy k) (other : (Pattern.wholeWord k).search? kind.keyword = none)
    (solid : ∀ {x c}, (∀ d ∈ x, isBlank d = false) → isBlank c = false → Text.isWord c = false → q.Passes (x ++ [c]))
    (h : kind.IsAskable n) : q.Passes (clauseLine kind n) := by
  have keyword : q.Passes (kind.keyword ++ [' ']) := led.passes_of_search? other (by decide)
  have named : q.Passes (n ++ [';']) :=
    solid (fun d hd => ClauseKind.visible_of_accepts (h.accepted d hd)) (by decide) (by decide)
  have feed : q.Passes ['\n'] := led.passes_plain (by decide)
  have whole := keyword.append (named.append feed)
  unfold clauseLine
  simpa using whole

theorem passes_clauseLines (h : ∀ n ∈ names, q.Passes (clauseLine kind n)) : q.Passes (names.flatMap (clauseLine kind)) := by
  induction names with
  | nil => exact Pattern.passes_nil q
  | cons n names ih => exact (h n (by simp)).append (ih fun m hm => h m (by simp [hm]))

theorem lastOf_clauseLine (before : Option Char) : lastOf before (clauseLine kind n) = some '\n' := by
  rw [clauseLine, lastOf_append]
  rfl

theorem scan_clauseLine (h : kind.IsAskable n) (outside : before.any Text.isWord = false) (s : Text) :
    (kind.pattern.scan before (clauseLine kind n ++ s)).map (·.group 1) =
      n :: (kind.pattern.scan (some '\n') s).map (·.group 1) := by
  have takes := (isClause_of_isAskable h).takes outside (s := ['\n'] ++ s)
  have feed : kind.pattern.Passes ['\n'] := kind.pattern_ledBy.passes_plain (by decide)
  rw [clauseLine]
  generalize kind.keyword ++ ([' '] ++ (n ++ [';'])) = clause at takes ⊢
  rw [List.append_assoc, Pattern.scan_of_takes takes (takes.ne_nil kind.nullable_pattern),
    Pattern.scan_of_quiet (feed _ _), List.map_cons]
  rfl

theorem scan_clauseLines (h : ∀ n ∈ names, kind.IsAskable n) (outside : before.any Text.isWord = false) (s : Text) :
    (kind.pattern.scan before (names.flatMap (clauseLine kind) ++ s)).map (·.group 1) =
      names ++ (kind.pattern.scan (lastOf before (names.flatMap (clauseLine kind))) s).map (·.group 1) := by
  induction names generalizing before with
  | nil => rfl
  | cons n names ih =>
      rw [List.flatMap_cons, List.append_assoc, scan_clauseLine (h n (by simp)) outside,
        ih (fun m hm => h m (by simp [hm])) (by decide), lastOf_append, lastOf_clauseLine]
      rfl

theorem endsLine_clauseLines (kind : ClauseKind) (names : List Text) : EndsLine (names.flatMap (clauseLine kind)) := by
  have lines := endsLine_flatMap (names.map fun n => kind.keyword ++ ([' '] ++ (n ++ [';'])))
  rw [List.flatMap_map] at lines
  exact lines

/-- What a reader finds in a text is what is written there line by line, if nothing else is asked for. -/
theorem firstOccurrences_clauseLines (front : kind.pattern.Passes x) (lines : EndsLine x)
    (h : ∀ n ∈ names, kind.IsAskable n) (once : names.Nodup) (behind : kind.Within names y) :
    firstOccurrences kind.pattern (x ++ (names.flatMap (clauseLine kind) ++ y)) = names := by
  rw [firstOccurrences_eq, Pattern.scan_of_quiet (front none _), scan_clauseLines h (any_lastOf_of_endsLine lines)]
  refine eraseDups_append_of_subset once (List.forall_mem_map.mpr fun a ha => ?_)
  exact behind.mem_of_asks (ClauseKind.asks_of_mem_scan ha)

def writtenContext (given : Context) : Text :=
  (contextLines given).flatMap (· ++ ['\n'])

def lineBelow (given : Context) : Text :=
  if given.isEmpty then [] else ['\n']

theorem writtenContext_eq (given : Context) : writtenContext given =
    (given.names .library).flatMap (clauseLine .library) ++
      ((given.names .use).flatMap (clauseLine .use) ++ lineBelow given) := by
  have below : ((if given.isEmpty then [] else ["".toList]) : List Text).flatMap (· ++ ['\n']) = lineBelow given := by
    unfold lineBelow
    split
    · rfl
    · rfl
  have clause (kind : ClauseKind) (n : Text) : kind.keyword ++ [' '] ++ n ++ [';'] ++ ['\n'] = clauseLine kind n := by
    simp only [clauseLine, List.append_assoc]
  have library : "library ".toList = ClauseKind.library.keyword ++ [' '] := by decide
  have use : "use ".toList = ClauseKind.use.keyword ++ [' '] := by decide
  have semicolon : ";".toList = [';'] := by decide
  unfold writtenContext contextLines
  rw [List.flatten_cons, List.flatten_cons, List.flatten_cons, List.flatten_nil, List.append_nil, List.flatMap_append,
    List.flatMap_append, below, List.flatMap_map, List.flatMap_map, library, use, semicolon]
  simp only [clause]
  rfl

theorem endsLine_writtenContext (given : Context) : EndsLine (writtenContext given) :=
  endsLine_flatMap (contextLines given)

theorem passes_lineBelow (led : q.LedBy k) : q.Passes (lineBelow given) := by
  refine led.passes_plain fun c hc => ?_
  rw [lineBelow] at hc
  split at hc
  · cases hc
  · rw [List.mem_singleton.mp hc]
    decide

namespace ContextFrom

variable (known : ContextFrom code given)
include known

theorem inner_writtenContext : ∀ c ∈ writtenContext given, isInner c = true ∨ c = ';' := by
  have each : ∀ kind, ∀ c ∈ (given.names kind).flatMap (clauseLine kind), isInner c = true ∨ c = ';' := by
    intro kind c hc
    obtain ⟨n, hn, hc⟩ := List.mem_flatMap.mp hc
    exact inner_clauseLine (known.isAskable kind n hn) c hc
  rw [writtenContext_eq]
  simp only [List.forall_mem_append]
  refine ⟨each .library, each .use, fun c hc => ?_⟩
  rw [lineBelow] at hc
  split at hc
  · cases hc
  · rw [List.mem_singleton.mp hc]
    exact .inl (by decide)

theorem not_mem_writtenContext (mark : isInner c = false) (other : c ≠ ';') : c ∉ writtenContext given := fun hc => by
  rcases known.inner_writtenContext c hc with inner | rfl
  · rw [mark] at inner
    cases inner
  · exact other rfl

theorem passes_entityPattern : entityPattern.Passes (writtenContext given) := by
  have clauses : ∀ kind, entityPattern.Passes ((given.names kind).flatMap (clauseLine kind)) := fun kind =>
    passes_clauseLines fun n hn => by
      refine passes_clauseLine entityPattern_ledBy (by cases kind <;> decide +kernel) (fun solid visible plain => ?_)
        (known.isAskable kind n hn)
      exact Pattern.passes_solid entityPattern_ledBy.words (.group 1 .word ++ (.gap ++ (.keyword "is" ++ .boundary)))
        (fun before t => by simp only [entityPattern, Pattern.readings_append_assoc]) solid visible plain
  rw [writtenContext_eq]
  exact (clauses .library).append ((clauses .use).append (passes_lineBelow entityPattern_ledBy))

theorem passes_pattern {other : ClauseKind} (differs : other ≠ kind) :
    other.pattern.Passes ((given.names kind).flatMap (clauseLine kind)) := by
  have foreign : ∀ kind other : ClauseKind, other ≠ kind → other.word.search? kind.keyword = none := by
    intro kind other differs
    cases kind <;> cases other <;> first | exact absurd rfl differs | decide +kernel
  refine passes_clauseLines fun n hn => ?_
  refine passes_clauseLine other.pattern_ledBy (foreign kind other differs) (fun solid visible plain => ?_)
    (known.isAskable kind n hn)
  exact Pattern.passes_solid other.pattern_ledBy.words (.group 1 (.atLeastOne other.accepts) ++ (.blanks ++ .char ';'))
    (fun before t => by rw [ClauseKind.readings_pattern, ClauseKind.ending]) solid visible plain

/-- A written context is read as it is, if what follows it asks for nothing beyond it. -/
theorem firstOccurrences_writtenContext (once : ∀ kind, (given.names kind).Nodup) (behind : Harmless given y)
    (kind : ClauseKind) : firstOccurrences kind.pattern (writtenContext given ++ y) = given.names kind := by
  have below : kind.Within (given.names kind) (lineBelow given) :=
    ClauseKind.within_of_passes (passes_lineBelow kind.pattern_ledBy)
  have rest := below.append (behind.clauses kind)
  rw [writtenContext_eq, List.append_assoc, List.append_assoc]
  cases kind with
  | library =>
      have uses : ClauseKind.library.Within (given.names .library) ((given.names .use).flatMap (clauseLine .use)) :=
        ClauseKind.within_of_passes (known.passes_pattern (by decide))
      exact firstOccurrences_clauseLines (Pattern.passes_nil _) (.inl rfl) (known.isAskable _) (once _) (uses.append rest)
  | use =>
      have libraries : ClauseKind.use.pattern.Passes ((given.names .library).flatMap (clauseLine .library)) :=
        known.passes_pattern (by decide)
      exact firstOccurrences_clauseLines libraries (endsLine_clauseLines _ _) (known.isAskable _) (once _) rest

end ContextFrom

end Pinout.Vhdl
