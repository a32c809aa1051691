import Pinout.Proofs.Pattern.WholeWord
import Pinout.Proofs.Text.Respaced
import Pinout.Proofs.Vhdl.Extracted

/-! # Clauses of a context

The two kinds of context clauses have one form: a keyword, a gap, a name and a semicolon. No clause
begins in the middle of another one, so the names that a search finds are the names that some clause
of the text asks for, wherever it stands. What blanks there are does not matter.
-/

namespace Pinout.Vhdl

/-- The kinds of context clauses. -/
inductive ClauseKind where
  | library
  | use
  deriving DecidableEq, Repr

/-- What a context asks for by clauses of a kind. -/
def Context.names (c : Context) : ClauseKind → List Text
  | .library => c.libraries
  | .use => c.packages

/-- Whether a character may stand in a clause, in front of its semicolon. -/
def isInner (c : Char) : Bool :=
  isSelected c || Text.isBlank c

theorem firstOccurrences_eq (p : Pattern) (t : Text) :
    firstOccurrences p t = ((p.scan none t).map (·.group 1)).eraseDups := by
  rw [firstOccurrences, ← Pattern.reading_findAll, List.map_map]
  congr 1
  exact List.map_congr_left fun found _ => (Match.group_reading found 1).symm

namespace ClauseKind

variable {kind : ClauseKind} {before : Option Char} {c : Char} {n n' s t t' u v x y : Text} {names : List Text}

def keyword : ClauseKind → Text
  | library => "library"
  | use => "use"

/-- Whether a character may stand in the name that a clause asks for. -/
def accepts : ClauseKind → Char → Bool
  | library => Text.isWord
  | use => isSelected

def pattern : ClauseKind → Pattern
  | library => libraryPattern
  | use => usePattern

def ending (kind : ClauseKind) : Pattern :=
  .gap ++ (.group 1 (.atLeastOne kind.accepts) ++ (.blanks ++ .char ';'))

theorem readings_pattern (kind : ClauseKind) (before : Option Char) (t : Text) :
    kind.pattern.readings before t =
      (.boundary ++ (.keyword kind.keyword ++ kind.ending) : Pattern).readings before t := by
  cases kind with
  | library | use =>
      simp only [pattern, libraryPattern, usePattern, ending, Pattern.readings_append_assoc]
      rfl

theorem letters (kind : ClauseKind) : ∀ letter ∈ kind.keyword, Pattern.isKeyLetter letter = true := by
  cases kind <;> decide

theorem keyword_ne_nil (kind : ClauseKind) : kind.keyword ≠ [] := by
  cases kind <;> decide

theorem isSelected_of_accepts (h : kind.accepts c = true) : isSelected c = true := by
  cases kind with
  | library => exact Bool.or_eq_true_iff.mpr (.inl h)
  | use => exact h

theorem accepts_of_isWord (h : Text.isWord c = true) : kind.accepts c = true := by
  cases kind with
  | library => exact h
  | use => exact Bool.or_eq_true_iff.mpr (.inl h)

theorem visible_of_accepts (h : kind.accepts c = true) : Text.isBlank c = false := by
  have selected := isSelected_of_accepts h
  rw [isSelected, Bool.or_eq_true] at selected
  rcases selected with word | dot
  · exact Text.not_isBlank_of_isWord word
  · rw [beq_iff_eq.mp dot]
    decide

theorem not_accepts_of_isBlank (h : Text.isBlank c = true) : kind.accepts c = false := by
  by_contra accepts
  have accepted : kind.accepts c = true := by simpa using accepts
  have visible := visible_of_accepts accepted
  rw [h] at visible
  cases visible

theorem not_accepts_of_not_isSelected (h : isSelected c = false) : kind.accepts c = false := by
  by_contra accepts
  have accepted : kind.accepts c = true := by simpa using accepts
  rw [isSelected_of_accepts accepted] at h
  cases h

theorem stops_accepts_of_blank {g : Text} (blank : ∀ c ∈ g, Text.isBlank c = true)
    (h : g ≠ [] ∨ Pattern.Stops isSelected s) : Pattern.Stops kind.accepts (g ++ s) := by
  cases g with
  | nil => exact fun d hd => not_accepts_of_not_isSelected (h.resolve_left (by simp) d hd)
  | cons d g => exact Pattern.stops_cons.mpr (not_accepts_of_isBlank (blank d (by simp)))

theorem stops_blank_of_accepts (nonempty : n ≠ []) (accepted : ∀ c ∈ n, kind.accepts c = true) :
    Pattern.Stops Text.isBlank (n ++ s) := by
  obtain ⟨c, n, rfl⟩ := List.exists_cons_of_ne_nil nonempty
  exact Pattern.stops_cons.mpr (visible_of_accepts (accepted c (by simp)))

theorem pattern_ledBy (kind : ClauseKind) : kind.pattern.LedBy (.keyword kind.keyword) :=
  Pattern.ledBy_gap (Pattern.readsWords_keyword kind.letters kind.keyword_ne_nil)
    (.group 1 (.atLeastOne kind.accepts) ++ (.blanks ++ .char ';')) fun before t => by
      rw [readings_pattern, ending]

theorem nullable_pattern (kind : ClauseKind) : kind.pattern.nullable = false := by
  cases kind <;> rfl

/-- A clause that asks for a name. -/
inductive IsClause (kind : ClauseKind) : (name clause : Text) → Prop
  | mk {k g n h : Text} : Pattern.Spells kind.keyword k → g ≠ [] → (∀ c ∈ g, Text.isBlank c = true) → n ≠ [] →
      (∀ c ∈ n, kind.accepts c = true) → (∀ c ∈ h, Text.isBlank c = true) →
      IsClause kind n (k ++ (g ++ (n ++ (h ++ [';']))))

/-- The text begins with a clause that asks for the name. -/
def Begins (kind : ClauseKind) (name t : Text) : Prop :=
  ∃ x s, t = x ++ s ∧ kind.IsClause name x

/-- Behind `before`, the text holds a clause that asks for the name. -/
def Asks (kind : ClauseKind) (before : Option Char) (name t : Text) : Prop :=
  ∃ u v, t = u ++ v ∧ (lastOf before u).any Text.isWord = false ∧ kind.Begins name v

theorem IsClause.takes (h : kind.IsClause n x) (outside : before.any Text.isWord = false) :
    kind.pattern.Takes before x [(1, n)] s := by
  obtain @⟨k, g, n, h, spells, apart, blank, nonempty, accepted, blank'⟩ := h
  obtain ⟨c, k', whole⟩ := List.exists_cons_of_ne_nil (spells.ne_nil kind.keyword_ne_nil)
  have edge : Pattern.boundary.Takes before [] [] (k ++ (g ++ (n ++ (h ++ [';']))) ++ s) := by
    refine .boundary ?_
    rw [whole]
    exact Pattern.isEdge_front outside (spells.word kind.letters c (by simp [whole]))
  have nameStarts : Pattern.Stops Text.isBlank (n ++ (h ++ [';']) ++ s) := by
    rw [List.append_assoc]
    exact stops_blank_of_accepts nonempty accepted
  have nameEnds : Pattern.Stops kind.accepts (h ++ [';'] ++ s) := by
    rw [List.append_assoc]
    exact stops_accepts_of_blank blank' (.inr (Pattern.stops_cons.mpr (by decide)))
  have semicolon : Pattern.Stops Text.isBlank ([';'] ++ s) := Pattern.stops_cons.mpr (by decide)
  have taken := edge.append ((Pattern.takes_keyword spells).append ((Pattern.takes_atLeastOne apart blank nameStarts).append
    (((Pattern.takes_atLeastOne nonempty accepted nameEnds).group 1).append
      ((Pattern.takes_blanks blank' semicolon).append Pattern.takes_char))))
  rw [Pattern.Takes] at taken ⊢
  rw [readings_pattern]
  exact taken

theorem exists_isClause_of_mem {a : Reading} (h : a ∈ kind.pattern.readings before t) :
    ∃ n, a.kept = [(1, n)] ∧ kind.IsClause n a.text ∧ before.any Text.isWord = false := by
  rw [readings_pattern] at h
  obtain ⟨edge, hedge, _, rfl, clause, hclause, rfl⟩ := Pattern.exists_of_mem_append h
  obtain ⟨k, hk, _, rfl, behind, hbehind, rfl⟩ := Pattern.exists_of_mem_append hclause
  obtain ⟨g, hg, _, rfl, named, hnamed, rfl⟩ := Pattern.exists_of_mem_append hbehind
  obtain ⟨_, hn, _, rfl, ended, hended, rfl⟩ := Pattern.exists_of_mem_append hnamed
  obtain ⟨h, hh, _, rfl, semicolon, hsemicolon, rfl⟩ := Pattern.exists_of_mem_append hended
  obtain ⟨n, hn, rfl⟩ := List.mem_map.mp hn
  obtain ⟨outside, rfl⟩ := Pattern.mem_boundary.mp hedge
  obtain ⟨-, rfl⟩ := Pattern.mem_char.mp hsemicolon
  obtain ⟨none₁, spells⟩ := Pattern.mem_keyword hk
  obtain ⟨apart, blank, none₂⟩ := Pattern.mem_atLeastOne hg
  obtain ⟨nonempty, accepted, none₃⟩ := Pattern.mem_atLeastOne hn
  obtain ⟨-, blank', none₄⟩ := Pattern.mem_many.mp hh
  refine ⟨n.text, ?_, .mk spells apart blank nonempty accepted blank', ?_⟩
  · simp [Reading.append, Reading.nothing, Reading.keep, none₁, none₂, none₃, none₄]
  · obtain ⟨c, w, whole⟩ := List.exists_cons_of_ne_nil (spells.ne_nil kind.keyword_ne_nil)
    by_contra inside
    rw [whole, Reading.nothing, List.nil_append, List.cons_append, Pattern.isEdge_inside (by simpa using inside)
      (spells.word kind.letters c (by simp [whole]))] at outside
    cases outside

theorem IsClause.exists_inner (h : kind.IsClause n x) : ∃ y, x = y ++ [';'] ∧ ∀ c ∈ y, isInner c = true := by
  obtain @⟨k, g, n, h, spells, -, blank, -, accepted, blank'⟩ := h
  refine ⟨k ++ (g ++ (n ++ h)), by simp, ?_⟩
  have word : ∀ c, Text.isWord c = true → isInner c = true := fun c hc => by simp [isInner, isSelected, hc]
  simp only [List.forall_mem_append]
  exact ⟨fun c hc => word c (spells.word kind.letters c hc), fun c hc => by simp [isInner, blank c hc],
    fun c hc => by simp [isInner, isSelected_of_accepts (accepted c hc)], fun c hc => by simp [isInner, blank' c hc]⟩

theorem IsClause.prefix_of_mark (h : kind.IsClause n x) (mark : isInner c = false) (front : x <+: v ++ c :: s) :
    x <+: v ++ [c] := by
  obtain ⟨y, rfl, inner⟩ := h.exists_inner
  have whole : v ++ [c] <+: v ++ c :: s := ⟨s, by simp⟩
  rcases List.prefix_or_prefix_of_prefix front whole with short | ⟨w, long⟩
  · exact short
  · rcases List.eq_nil_or_concat' w with rfl | ⟨w, d, rfl⟩
    · rw [List.append_nil] at long
      exact long ▸ List.prefix_rfl
    · rw [← List.append_assoc] at long
      have inside : isInner c = true := inner c (by rw [← List.append_inj_left' long rfl]; simp)
      rw [mark] at inside
      cases inside

theorem Begins.append (h : kind.Begins n t) (s : Text) : kind.Begins n (t ++ s) := by
  obtain ⟨x, r, rfl, clause⟩ := h
  exact ⟨x, r ++ s, List.append_assoc _ _ _, clause⟩

theorem Begins.up_to_mark (h : kind.Begins n (v ++ c :: s)) (mark : isInner c = false) : kind.Begins n (v ++ [c]) := by
  obtain ⟨x, r, split, clause⟩ := h
  obtain ⟨r, split⟩ := clause.prefix_of_mark mark ⟨r, split.symm⟩
  exact ⟨x, r, split.symm, clause⟩

theorem Begins.of_mark (h : kind.Begins n (v ++ c :: s)) (mark : isInner c = false) (other : c ≠ ';') :
    kind.Begins n v := by
  obtain ⟨x, r, split, clause⟩ := h
  rcases List.prefix_concat_iff.mp (clause.prefix_of_mark mark ⟨r, split.symm⟩) with whole | ⟨r, inside⟩
  · obtain ⟨y, rfl, -⟩ := clause.exists_inner
    exact absurd (List.cons.inj (List.append_inj_right' whole rfl)).1.symm other
  · exact ⟨x, r, inside.symm, clause⟩

theorem Asks.semicolon_mem (h : kind.Asks before n t) : ';' ∈ t := by
  obtain ⟨u, _, rfl, -, x, s, rfl, clause⟩ := h
  obtain ⟨y, rfl, -⟩ := clause.exists_inner
  simp

theorem Asks.of_part (h : kind.Asks none n v) (outside : (lastOf none u).any Text.isWord = false) (s : Text) :
    kind.Asks none n (u ++ (v ++ s)) := by
  obtain ⟨u', v, rfl, outside', begins⟩ := h
  refine ⟨u ++ u', v ++ s, by simp, ?_, begins.append s⟩
  have front : (lastOf none u).any Text.isWord = (none : Option Char).any Text.isWord := outside
  rw [lastOf_append, Pattern.any_lastOf_congr front]
  exact outside'

theorem last_run_unique {accepts : Char → Bool} (split : s ++ x = t ++ y) (all : ∀ c ∈ x, accepts c = true)
    (stops : ∀ c ∈ s.getLast?, accepts c = false) (all' : ∀ c ∈ y, accepts c = true)
    (stops' : ∀ c ∈ t.getLast?, accepts c = false) : y = x ∧ t = s := by
  have reversed := congrArg List.reverse split
  rw [List.reverse_append, List.reverse_append] at reversed
  have stopped : Pattern.Stops accepts s.reverse := by simpa [Pattern.Stops] using stops
  have stopped' : Pattern.Stops accepts t.reverse := by simpa [Pattern.Stops] using stops'
  have unique := Pattern.run_unique reversed (by simpa using all) stopped (by simpa using all') stopped'
  simpa using unique

theorem mem_of_getLast?_append (nonempty : x ≠ []) (h : c ∈ (s ++ x).getLast?) : c ∈ x := by
  rw [List.getLast?_append_of_ne_nil _ nonempty] at h
  exact List.mem_of_getLast? h

/-- The name is the last run of its characters in a clause. -/
theorem IsClause.name_unique (h : kind.IsClause n x) (h' : kind.IsClause n' (u ++ x)) : n = n' := by
  obtain @⟨k, g, n, b, -, apart, blank, nonempty, accepted, blank'⟩ := h
  generalize whole : u ++ (k ++ (g ++ (n ++ (b ++ [';'])))) = y at h'
  obtain @⟨k₂, g₂, n₂, b₂, -, apart₂, blank₂, nonempty₂, accepted₂, blank₂'⟩ := h'
  have ended : (u ++ k ++ g ++ n ++ b) ++ [';'] = (k₂ ++ g₂ ++ n' ++ b₂) ++ [';'] := by
    simpa only [List.append_assoc] using whole
  have cut := List.append_inj_left' ended rfl
  have visible : ∀ {m : Text}, (∀ c ∈ m, kind.accepts c = true) → m ≠ [] → ∀ s, ∀ c ∈ (s ++ m).getLast?,
      Text.isBlank c = false := fun accepted nonempty s c hc =>
    visible_of_accepts (accepted c (mem_of_getLast?_append nonempty hc))
  have apart' : ∀ {m : Text}, (∀ c ∈ m, Text.isBlank c = true) → m ≠ [] → ∀ s, ∀ c ∈ (s ++ m).getLast?,
      kind.accepts c = false := fun blank nonempty s c hc =>
    not_accepts_of_isBlank (blank c (mem_of_getLast?_append nonempty hc))
  obtain ⟨-, fronts⟩ := last_run_unique cut blank' (visible accepted nonempty _) blank₂' (visible accepted₂ nonempty₂ _)
  exact (last_run_unique fronts accepted₂ (apart' blank₂ apart₂ _) accepted (apart' blank apart _)).1

theorem IsClause.of_begins (whole : kind.IsClause n' (u ++ v)) (nonempty : v ≠ []) (h : kind.Begins n (v ++ s)) :
    kind.IsClause n v := by
  obtain ⟨z, split, inner⟩ := whole.exists_inner
  obtain ⟨w, d, rfl⟩ := (List.eq_nil_or_concat' v).resolve_left nonempty
  rw [← List.append_assoc] at split
  obtain rfl := (List.cons.inj (List.append_inj_right' split rfl)).1
  obtain rfl := List.append_inj_left' split rfl
  rw [List.append_assoc, List.singleton_append] at h
  obtain ⟨x, r, split, clause⟩ := h.up_to_mark (by decide)
  obtain ⟨y, rfl, -⟩ := clause.exists_inner
  rcases List.eq_nil_or_concat' r with rfl | ⟨r, e, rfl⟩
  · rwa [split, List.append_nil]
  · rw [← List.append_assoc] at split
    have inside := inner ';' (by rw [List.append_inj_left' split rfl]; simp)
    exact absurd inside (by decide)

theorem group_of_kept {a : Reading} (h : a.kept = [(1, n)]) : a.group 1 = n := by
  rw [Reading.group, Reading.group?, h]
  rfl

/-- No clause begins in the middle of another one, so a search finds every clause. -/
theorem exists_scan_of_asks (h : kind.Asks before n t) : ∃ a ∈ kind.pattern.scan before t, a.group 1 = n := by
  induction before, t using Pattern.search_induction kind.nullable_pattern with
  | nil before =>
      obtain ⟨u, v, split, -, x, s, rfl, clause⟩ := h
      obtain ⟨y, rfl, -⟩ := clause.exists_inner
      simp at split
  | refused before c s refuses ih =>
      have passed : kind.pattern.scan before ([c] ++ s) = kind.pattern.scan (some c) s :=
        Pattern.scan_of_quiet ⟨refuses, trivial⟩
      rw [List.singleton_append] at passed
      rw [passed]
      obtain ⟨u, v, split, outside, x, r, rfl, clause⟩ := h
      cases u with
      | nil =>
          have read := (clause.takes outside (s := r)).mem
          rw [List.nil_append] at split
          rw [← split] at read
          exact absurd read (Pattern.refuses_iff.mp refuses _)
      | cons d u =>
          obtain ⟨rfl, rfl⟩ := List.cons.inj split
          exact ih ⟨u, _, rfl, outside, x, r, rfl, clause⟩
  | taken before x kept s nonempty takes ih =>
      rw [Pattern.scan_of_takes takes nonempty]
      obtain ⟨m, hkept, whole, -⟩ := exists_isClause_of_mem takes.mem
      obtain ⟨u, v, split, outside, begins⟩ := h
      rcases List.append_eq_append_iff.mp split with ⟨w, rfl, rfl⟩ | ⟨w, rfl, rfl⟩
      · obtain ⟨a, ha, named⟩ := ih ⟨w, v, rfl, by rwa [lastOf_append] at outside, begins⟩
        exact ⟨a, List.mem_cons_of_mem _ ha, named⟩
      · by_cases empty : w = []
        · subst empty
          obtain ⟨a, ha, named⟩ := ih ⟨[], s, rfl, by simpa using outside, begins⟩
          exact ⟨a, List.mem_cons_of_mem _ ha, named⟩
        · have same := (whole.of_begins empty begins).name_unique whole
          exact ⟨_, List.mem_cons_self, (group_of_kept hkept).trans same.symm⟩

theorem asks_of_mem_scan {a : Reading} (h : a ∈ kind.pattern.scan before t) : kind.Asks before (a.group 1) t := by
  obtain ⟨u, s, rfl, takes⟩ := Pattern.exists_place_of_mem_scan kind.nullable_pattern h
  obtain ⟨n, kept, clause, outside⟩ := exists_isClause_of_mem takes.mem
  rw [group_of_kept kept]
  exact ⟨u, _, rfl, outside, a.text, s, rfl, clause⟩

/-- What a context asks for is what some clause of the source asks for. -/
theorem mem_firstOccurrences_iff : n ∈ firstOccurrences kind.pattern t ↔ kind.Asks none n t := by
  rw [firstOccurrences_eq, List.mem_eraseDups]
  constructor
  · intro h
    obtain ⟨a, ha, rfl⟩ := List.mem_map.mp h
    exact asks_of_mem_scan ha
  · intro h
    obtain ⟨a, ha, rfl⟩ := exists_scan_of_asks h
    exact List.mem_map_of_mem ha

theorem Begins.of_respaced (h : Text.Respaced t t') (begins : kind.Begins n t') : kind.Begins n t := by
  obtain ⟨_, s, rfl, @⟨k, g, n, b, spells, apart, blank, nonempty, accepted, blank'⟩⟩ := begins
  obtain ⟨c, m, rfl⟩ := List.exists_cons_of_ne_nil nonempty
  have visible : ∀ d ∈ c :: m, Text.isBlank d = false := fun d hd => visible_of_accepts (accepted d hd)
  have word : ∀ d ∈ k, Text.isBlank d = false := fun d hd =>
    Text.not_isBlank_of_isWord (spells.word kind.letters d hd)
  simp only [List.append_assoc, List.cons_append, List.nil_append] at h
  obtain ⟨_, rfl, behindKeyword⟩ := h.exists_of_append word
  obtain ⟨g', _, rfl, blanks, apart', behindGap⟩ := behindKeyword.exists_of_blanks blank (visible c (by simp))
  obtain ⟨_, rfl, behindName⟩ := behindGap.exists_of_append fun d hd => visible d (by simp [hd])
  obtain ⟨b', r, rfl, blanks', -, -⟩ := behindName.exists_of_blanks blank' (by decide)
  exact ⟨_, r, by simp, .mk spells (apart' apart) blanks nonempty accepted blanks'⟩

theorem Begins.visible (h : kind.Begins n (c :: t)) : Text.isBlank c = false := by
  obtain ⟨_, s, split, @⟨k, g, n, b, spells, apart, blank, nonempty, accepted, blank'⟩⟩ := h
  obtain ⟨d, k, rfl⟩ := List.exists_cons_of_ne_nil (spells.ne_nil kind.keyword_ne_nil)
  rw [(List.cons.inj split).1]
  exact Text.not_isBlank_of_isWord (spells.word kind.letters d (by simp))

theorem asks_behind {before' : Option Char} (front : before.any Text.isWord = before'.any Text.isWord) :
    kind.Asks before n t ↔ kind.Asks before' n t := by
  simp only [Asks, Pattern.any_lastOf_congr front]

theorem asks_cons : kind.Asks before n (c :: t) ↔
    before.any Text.isWord = false ∧ kind.Begins n (c :: t) ∨ kind.Asks (some c) n t := by
  constructor
  · rintro ⟨u, v, split, outside, begins⟩
    cases u with
    | nil => exact .inl ⟨outside, split ▸ begins⟩
    | cons d u =>
        obtain ⟨rfl, rfl⟩ := List.cons.inj split
        exact .inr ⟨u, v, rfl, outside, begins⟩
  · rintro (⟨outside, begins⟩ | ⟨u, v, rfl, outside, begins⟩)
    · exact ⟨[], _, rfl, outside, begins⟩
    · exact ⟨c :: u, v, rfl, outside, begins⟩

theorem asks_blanks_append {g : Text} (nonempty : g ≠ []) (blank : ∀ c ∈ g, Text.isBlank c = true) :
    kind.Asks before n (g ++ t) ↔ kind.Asks none n t := by
  induction g generalizing before with
  | nil => exact absurd rfl nonempty
  | cons c g ih =>
      have outside : (some c).any Text.isWord = (none : Option Char).any Text.isWord :=
        Text.isWord_of_isBlank (blank c (by simp))
      have invisible : ¬ kind.Begins n (c :: (g ++ t)) := fun begins => by
        have visible := begins.visible
        rw [blank c (by simp)] at visible
        cases visible
      rw [List.cons_append, asks_cons, or_iff_right fun front => invisible front.2, asks_behind outside]
      cases g with
      | nil => rfl
      | cons d g => exact ih (by simp) fun e he => blank e (by simp [he])

/-- A text asks for the same whatever its blanks are. -/
theorem Asks.of_respaced (h : Text.Respaced t t') (asks : kind.Asks before n t') : kind.Asks before n t := by
  induction h generalizing before with
  | nil => exact asks
  | keep c kept ih =>
      exact asks_cons.mpr ((asks_cons.mp asks).imp (.imp_right (.of_respaced (.keep c kept))) ih)
  | space nonempty blank nonempty' blank' _ ih =>
      rw [asks_blanks_append nonempty' blank'] at asks
      exact (asks_blanks_append nonempty blank).mpr (ih asks)

end ClauseKind

theorem nodup_eraseDups : ∀ l : List Text, l.eraseDups.Nodup
  | [] => List.nodup_nil
  | a :: l => by
      rw [List.eraseDups_cons, List.nodup_cons, List.mem_eraseDups]
      exact ⟨by simp, nodup_eraseDups _⟩
termination_by l => l.length
decreasing_by exact Nat.lt_succ_of_le (List.length_filter_le _ l)

theorem eraseDups_of_nodup {l : List Text} (h : l.Nodup) : l.eraseDups = l := by
  induction l with
  | nil => rfl
  | cons a l ih =>
      obtain ⟨absent, nodup⟩ := List.nodup_cons.mp h
      have others : l.filter (fun b => !b == a) = l :=
        List.filter_eq_self.mpr fun b hb => by simpa using fun same : b = a => absent (same ▸ hb)
      rw [List.eraseDups_cons, others, ih nodup]

theorem eraseDups_append_of_subset {l more : List Text} (h : l.Nodup) (known : ∀ n ∈ more, n ∈ l) :
    (l ++ more).eraseDups = l := by
  have none : more.removeAll l = [] := List.filter_eq_nil_iff.mpr fun n hn => by simpa using known n hn
  rw [List.eraseDups_append, none, eraseDups_of_nodup h]
  exact List.append_nil l

theorem nodup_names (source : Text) (kind : ClauseKind) : ((context source).names kind).Nodup := by
  cases kind with
  | library | use => exact nodup_eraseDups _

theorem names_context (source : Text) (kind : ClauseKind) :
    (context source).names kind = firstOccurrences kind.pattern (stripComments source) := by
  cases kind <;> rfl

end Pinout.Vhdl
