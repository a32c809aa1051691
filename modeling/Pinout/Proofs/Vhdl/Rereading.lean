import Pinout.Proofs.Vhdl.Clause
import Pinout.Proofs.Vhdl.Uncommented

/-! # Reading a written text

What a reader of entities makes of a part of a text, wherever the part stands: that no comment begins in
it, and that its clauses ask for nothing beyond a context. Names are passed over because of what stands
behind them, and fixed words because they are none of the keywords.
-/

namespace Pinout.Vhdl

variable {context : Context} {kind : ClauseKind} {before : Option Char} {c : Char} {g n s t v w x x' y : Text}
  {names : List Text}

namespace ClauseKind

/-- Whatever clause begins in the text, wherever it stands, asks for one of the names. -/
def Within (kind : ClauseKind) (names : List Text) (x : Text) : Prop :=
  ∀ before s u v, x = u ++ v → v ≠ [] → (lastOf before u).any Text.isWord = false →
    ∀ n, kind.Begins n (v ++ s) → n ∈ names

theorem not_begins_nil : ¬ kind.Begins n [] := by
  rintro ⟨_, s, split, clause⟩
  obtain ⟨y, rfl, -⟩ := clause.exists_inner
  simp at split

theorem within_nil : kind.Within names [] := by
  intro _ _ u v split nonempty
  exact absurd (List.append_eq_nil_iff.mp split.symm).2 nonempty

theorem Within.append (first : kind.Within names x) (second : kind.Within names y) :
    kind.Within names (x ++ y) := by
  intro before s u v split nonempty outside n begins
  rcases List.append_eq_append_iff.mp split with ⟨z, rfl, rfl⟩ | ⟨z, rfl, rfl⟩
  · exact second _ s z v rfl nonempty (by rwa [lastOf_append] at outside) n begins
  · by_cases empty : z = []
    · subst empty
      exact second _ s [] y rfl nonempty outside n begins
    · exact first before (y ++ s) u z rfl empty outside n (by rwa [← List.append_assoc])

theorem within_of_passes (h : kind.pattern.Passes x) : kind.Within names x := by
  rintro before s u v rfl nonempty outside n begins
  obtain ⟨c, v, rfl⟩ := List.exists_cons_of_ne_nil nonempty
  have refuses := (h before s).refuses
  obtain ⟨clause, r, split, isClause⟩ := begins
  have read := (isClause.takes outside (s := r)).mem
  rw [← split] at read
  exact absurd read (Pattern.refuses_iff.mp refuses _)

theorem Within.mem_of_asks (h : kind.Within names x) (asks : kind.Asks before n x) : n ∈ names := by
  obtain ⟨u, v, split, outside, begins⟩ := asks
  have nonempty : v ≠ [] := by
    rintro rfl
    exact not_begins_nil begins
  exact h before [] u v split nonempty outside n (by rwa [List.append_nil])

/-- What is asked for in front of a mark does not depend on what follows the mark. -/
theorem within_of_asks (h : ∀ before n, kind.Asks before n (x ++ [c]) → n ∈ names) (mark : isInner c = false) :
    kind.Within names (x ++ [c]) := by
  intro before s u v split nonempty outside n begins
  obtain ⟨v, d, rfl⟩ := (List.eq_nil_or_concat' v).resolve_left nonempty
  rw [← List.append_assoc] at split
  obtain rfl := (List.cons.inj (List.append_inj_right' split rfl)).1
  rw [List.append_assoc, List.singleton_append] at begins
  refine h before n ⟨u, v ++ [c], ?_, outside, begins.up_to_mark mark⟩
  rw [split, List.append_assoc]

theorem asks_of_mark (h : kind.Asks before n (x ++ [c])) (mark : isInner c = false) (other : c ≠ ';') :
    kind.Asks none n x := by
  obtain ⟨u, v, split, outside, begins⟩ := h
  obtain ⟨v, d, rfl⟩ := (List.eq_nil_or_concat' v).resolve_left fun empty => not_begins_nil (empty ▸ begins)
  rw [← List.append_assoc] at split
  obtain rfl := (List.cons.inj (List.append_inj_right' split rfl)).1
  refine ⟨u, v, List.append_inj_left' split rfl, ?_, begins.of_mark mark other⟩
  cases u with
  | nil => rfl
  | cons d u => exact outside

theorem Begins.behind_word (h : kind.Begins n (w ++ y)) (word : ∀ c ∈ w, Text.isWord c = true)
    (stops : Pattern.Stops Text.isWord y) :
    ∃ g b s, y = g ++ (n ++ (b ++ ';' :: s)) ∧ g ≠ [] ∧ (∀ c ∈ g, Text.isBlank c = true) ∧ n ≠ [] ∧
      (∀ c ∈ n, kind.accepts c = true) ∧ ∀ c ∈ b, Text.isBlank c = true := by
  obtain ⟨_, s, split, @⟨k, g, n, b, spells, apart, blank, nonempty, accepted, blank'⟩⟩ := h
  simp only [List.append_assoc, List.cons_append, List.nil_append] at split
  have ends : Pattern.Stops Text.isWord (g ++ (n ++ (b ++ ';' :: s))) := Pattern.stops_gap blank (.inl apart)
  obtain ⟨-, rfl⟩ := Pattern.run_unique split word stops (spells.word kind.letters) ends
  exact ⟨g, b, s, rfl, apart, blank, nonempty, accepted, blank'⟩

theorem not_begins_mark (word : ∀ d ∈ w, Text.isWord d = true) (blank : ∀ d ∈ g, Text.isBlank d = true)
    (mark : isInner c = false) : ¬ kind.Begins n (w ++ (g ++ c :: s)) := by
  intro h
  rw [isInner, Bool.or_eq_false_iff] at mark
  have plain : Text.isWord c = false := (Bool.or_eq_false_iff.mp mark.1).1
  obtain ⟨g₁, b, r, split, -, blank₁, nonempty, accepted, -⟩ := h.behind_word word
    (Pattern.stops_gap blank (.inr (Pattern.stops_cons.mpr plain)))
  obtain ⟨-, same⟩ := Pattern.run_unique split blank (Pattern.stops_cons.mpr mark.2) blank₁
    (stops_blank_of_accepts nonempty accepted)
  obtain ⟨d, n, rfl⟩ := List.exists_cons_of_ne_nil nonempty
  have selected := isSelected_of_accepts (accepted d (by simp))
  rw [(List.cons.inj same).1, mark.1] at selected
  cases selected

/-- A word in front of two others is no keyword, and neither is one in front of a word and a mark. -/
theorem not_begins_words {w' g' : Text} (word : ∀ d ∈ w, Text.isWord d = true) (apart : g ≠ [])
    (blank : ∀ d ∈ g, Text.isBlank d = true) (nonempty' : w' ≠ []) (word' : ∀ d ∈ w', Text.isWord d = true)
    (apart' : g' ≠ []) (blank' : ∀ d ∈ g', Text.isBlank d = true) (visible : Text.isBlank c = false) (other : c ≠ ';') :
    ¬ kind.Begins n (w ++ (g ++ (w' ++ (g' ++ c :: s)))) := by
  intro h
  have accepted' : ∀ d ∈ w', kind.accepts d = true := fun d hd => accepts_of_isWord (word' d hd)
  obtain ⟨g₁, b, r, split, -, blank₁, nonempty, accepted, blank₂⟩ := h.behind_word word
    (Pattern.stops_gap blank (.inl apart))
  obtain ⟨-, named⟩ := Pattern.run_unique split blank (stops_blank_of_accepts nonempty' accepted') blank₁
    (stops_blank_of_accepts nonempty accepted)
  obtain ⟨-, ended⟩ := Pattern.run_unique named accepted (stops_accepts_of_blank blank₂ (.inr
    (Pattern.stops_cons.mpr (by decide)))) accepted' (stops_accepts_of_blank blank' (.inl apart'))
  have semicolon : Pattern.Stops Text.isBlank (';' :: r) := Pattern.stops_cons.mpr (by decide)
  obtain ⟨-, same⟩ := Pattern.run_unique ended blank' (Pattern.stops_cons.mpr visible) blank₂ semicolon
  exact other (List.cons.inj same).1.symm

end ClauseKind

def ClauseKind.word (kind : ClauseKind) : Pattern :=
  .wholeWord (.keyword kind.keyword)

/-- The text holds no keyword of a context clause. -/
def ClauseFree (x : Text) : Prop :=
  ∀ kind : ClauseKind, kind.word.search? x = none

instance (x : Text) : Decidable (ClauseFree x) :=
  decidable_of_iff ((ClauseKind.library.word.search? x).isNone ∧ (ClauseKind.use.word.search? x).isNone) <| by
    simp only [ClauseFree, Option.isNone_iff_eq_none]
    exact ⟨fun ⟨library, use⟩ kind => by cases kind with | library => exact library | use => exact use,
      fun free => ⟨free .library, free .use⟩⟩

/-- In the text no comment begins, and its clauses ask for nothing beyond the context, wherever it stands. -/
structure Harmless (context : Context) (x : Text) : Prop where
  comment : commentPattern.Passes x
  clauses : ∀ kind : ClauseKind, kind.Within (context.names kind) x

theorem harmless_nil : Harmless context [] :=
  ⟨Pattern.passes_nil _, fun _ => ClauseKind.within_nil⟩

theorem Harmless.append (first : Harmless context x) (second : Harmless context y) : Harmless context (x ++ y) :=
  ⟨first.comment.append second.comment, fun kind => (first.clauses kind).append (second.clauses kind)⟩

theorem harmless_plain (free : ¬ ['-', '-'] <:+: x) (clauses : ClauseFree x) (differs : c ≠ '-')
    (plain : Text.isWord c = false) : Harmless context (x ++ [c]) where
  comment := passes_commentPattern free differs
  clauses kind := ClauseKind.within_of_passes (kind.pattern_ledBy.passes_of_search? (clauses kind) plain)

theorem harmless_separator (word : ∀ d ∈ x, Text.isWord d = false) (dash : '-' ∉ x) : Harmless context x where
  comment := Pattern.passes_of_closed rfl fun d hd => opens_commentPattern (by rintro rfl; exact dash hd)
  clauses kind := ClauseKind.within_of_passes (kind.pattern_ledBy.passes_plain word)

theorem harmless_word_append (word : ∀ d ∈ w, Text.isWord d = true)
    (silent : ∀ (kind : ClauseKind) n s, ¬ kind.Begins n (w ++ (y ++ s))) (rest : Harmless context y) :
    Harmless context (w ++ y) where
  comment := (Pattern.passes_of_closed rfl fun d hd => opens_commentPattern (Text.ne_of_isWord (word d hd) (by decide))).append
    rest.comment
  clauses kind := by
    intro before s u v split nonempty outside n begins
    rcases List.append_eq_append_iff.mp split with ⟨z, rfl, rfl⟩ | ⟨z, rfl, rfl⟩
    · exact rest.clauses kind _ s z v rfl nonempty (by rwa [lastOf_append] at outside) n begins
    · cases u with
      | nil => exact absurd begins (by simpa using silent kind n s)
      | cons d u =>
          have inside : (lastOf before (d :: u)).any Text.isWord = true := Pattern.any_lastOf (by simp) fun e he =>
            word e (List.mem_append_left z he)
          rw [inside] at outside
          cases outside

theorem harmless_name (word : ∀ d ∈ w, Text.isWord d = true) (blank : ∀ d ∈ g, Text.isBlank d = true)
    (mark : isInner c = false) (differs : c ≠ '-') : Harmless context (w ++ (g ++ [c])) := by
  refine harmless_word_append word (fun kind n s => ?_) (harmless_separator ?_ ?_)
  · rw [List.append_assoc, List.singleton_append]
    exact ClauseKind.not_begins_mark word blank mark
  · rw [isInner, isSelected, Bool.or_eq_false_iff, Bool.or_eq_false_iff] at mark
    simp only [List.forall_mem_append, List.forall_mem_singleton]
    exact ⟨fun d hd => Text.isWord_of_isBlank (blank d hd), mark.1.1⟩
  · simp only [List.mem_append, List.mem_singleton, not_or]
    exact ⟨fun hd => absurd (blank _ hd) (by decide), differs.symm⟩

theorem harmless_part (free : ¬ ['-', '-'] <:+: x)
    (asks : ∀ (kind : ClauseKind) n, kind.Asks none n x → n ∈ context.names kind) (mark : isInner c = false)
    (other : c ≠ ';') (differs : c ≠ '-') : Harmless context (x ++ [c]) where
  comment := passes_commentPattern free differs
  clauses kind := by
    exact ClauseKind.within_of_asks (fun before n asked => asks kind n (ClauseKind.asks_of_mark asked mark other)) mark

/-- A text up to a semicolon is passed over with whatever blanks. -/
theorem Harmless.of_respaced (h : Harmless context x) (ends : x.getLast? = some ';') (spaced : Text.Respaced x x') :
    Harmless context x' := by
  have free : ¬ ['-', '-'] <:+: x := by
    rintro ⟨u, v, rfl⟩
    have quiet := h.comment none []
    rw [List.append_assoc] at quiet
    have refuses := Pattern.Quiet.refuses quiet
    exact Pattern.not_refuses_exactly_many refuses
  obtain ⟨y, rfl⟩ := List.getLast?_eq_some_iff.mp (spaced.getLast? ends (by decide))
  refine ⟨passes_commentPattern (fun pair => free ?_) (by decide), fun kind => ?_⟩
  · exact spaced.pair_infix (by decide) (by decide) (pair.trans (List.prefix_append y [';']).isInfix)
  · exact ClauseKind.within_of_asks (fun before n asked => (h.clauses kind).mem_of_asks (asked.of_respaced spaced))
      (by decide)

end Pinout.Vhdl
