import Mathlib.Data.List.Infix
import Pinout.Proofs.Pattern.Horizon
import Pinout.Proofs.Text.Lines
import Pinout.Proofs.Text.Pairs
import Pinout.Verilog.Declaration

/-! # Removing comments from Verilog

A text is read from left to right as lines comments, block comments and plain characters. Removing the
comments opens no new one: the character in front of a removed block is no slash, and where a block is
never closed nothing behind it can close it later.
-/

namespace Pinout.Verilog

open Pattern (Stops stops_nil stops_cons)

variable {a b c s t x : Text} {before : Option Char} {d : Char}

/-- What stands between the marks of a block comment: the closing mark does not come about in it. -/
def IsBlockBody (x : Text) : Prop :=
  ¬ ['*', '/'] <:+: x ++ ['*']

instance (x : Text) : Decidable (IsBlockBody x) :=
  inferInstanceAs (Decidable (¬ _))

theorem IsBlockBody.not_infix (body : IsBlockBody x) : ¬ ['*', '/'] <:+: x := fun found =>
  body (found.trans List.infix_append_left)

theorem opens_commentPattern (h : d ≠ '/') : commentPattern.opens d = false := by
  simp [commentPattern, Pattern.exactly, Pattern.char, Pattern.opens, Pattern.nullable, h]

theorem takes_lineComment (inline : '\n' ∉ x) (stops : Stops (· != '\n') s) :
    commentPattern.Takes before ('/' :: '/' :: x) [] s := by
  have marks : ("//".toList ++ x : Text) = '/' :: '/' :: x := rfl
  rw [← marks]
  exact .left (Pattern.takes_exactly.append (.many (Text.forall_bne inline) stops))

theorem takes_blockComment (body : IsBlockBody x) :
    commentPattern.Takes before ('/' :: '*' :: (x ++ ['*', '/'])) [] s := by
  have early : ∀ u v, x = u ++ v → v ≠ [] →
      (Pattern.exactly "*/").Refuses (lastOf (lastOf before "/*".toList) u) (v ++ ("*/".toList ++ s)) := by
    intro u v split nonempty
    refine Pattern.refuses_exactly fun front => ?_
    obtain ⟨e, v, rfl⟩ := List.exists_cons_of_ne_nil nonempty
    change ['*', '/'] <+: e :: (v ++ '*' :: '/' :: s) at front
    obtain ⟨same, front⟩ := List.cons_prefix_cons.mp front
    cases v with
    | nil => exact absurd (List.cons_prefix_cons.mp front).1 (by decide)
    | cons f v =>
        have second := (List.cons_prefix_cons.mp front).1
        exact body.not_infix ⟨u, v, by rw [split, ← second, ← same]; simp⟩
  have line : (Pattern.exactly "//" ++ .many (· != '\n')).Refuses before
      ('/' :: '*' :: (x ++ ['*', '/']) ++ s) := by
    refine (Pattern.refuses_exactly fun front => ?_).append
    exact absurd (List.cons_prefix_cons.mp (List.cons_prefix_cons.mp front).2).1 (by decide)
  have marks : ("/*".toList ++ (x ++ "*/".toList) : Text) = '/' :: '*' :: (x ++ ['*', '/']) := rfl
  rw [← marks] at line ⊢
  exact .right line (Pattern.Takes.assoc.mpr
    (Pattern.takes_exactly.append (.few_append (fun _ _ => rfl) early Pattern.takes_exactly)))

theorem refuses_commentPattern_iff : commentPattern.Refuses before t ↔
    ¬ ['/', '/'] <+: t ∧ ∀ s, t = '/' :: '*' :: s → ¬ ['*', '/'] <:+: s := by
  constructor
  · intro refuses
    refine ⟨?_, ?_⟩
    · rintro ⟨s, rfl⟩
      obtain ⟨x, s, rfl, all, stops⟩ := Pattern.exists_run (· != '\n') s
      refine (takes_lineComment (fun hx => ?_) stops).not_refuses refuses
      simpa using all '\n' hx
    · rintro s rfl closed
      obtain ⟨x, s, rfl, body⟩ := Text.exists_first_pair closed
      have takes : commentPattern.Takes before _ [] s := takes_blockComment body
      refine takes.not_refuses ?_
      simpa using refuses
  · rintro ⟨line, block⟩
    refine Pattern.refuses_orElse.mpr ⟨(Pattern.refuses_exactly line).append, ?_⟩
    refine Pattern.refuses_append fun first s hfirst split => Pattern.refuses_exactly fun closing => ?_
    obtain ⟨opening, hopening, u, place, body, hbody, rfl⟩ := Pattern.exists_of_mem_append hfirst
    rw [Pattern.mem_exactly hopening] at place split
    obtain ⟨v, rfl⟩ := closing
    have rest : t = '/' :: '*' :: (body.text ++ ("*/".toList ++ v)) := by
      rw [split, Reading.append, List.append_assoc]
      rfl
    exact block _ rest ⟨body.text, v, by rw [List.append_assoc]; rfl⟩

theorem comment_cases (t : Text) : t = [] ∨
    (∃ x s, t = '/' :: '/' :: (x ++ s) ∧ '\n' ∉ x ∧ Stops (· != '\n') s) ∨
    (∃ x s, t = '/' :: '*' :: (x ++ '*' :: '/' :: s) ∧ IsBlockBody x) ∨
    ∃ d s, t = d :: s ∧ commentPattern.Refuses none (d :: s) := by
  cases t with
  | nil => exact .inl rfl
  | cons d s =>
      by_cases refuses : commentPattern.Refuses none (d :: s)
      · exact .inr (.inr (.inr ⟨d, s, rfl, refuses⟩))
      · rw [refuses_commentPattern_iff, Classical.not_and_iff_not_or_not, Classical.not_not] at refuses
        rcases refuses with ⟨u, split⟩ | block
        · obtain ⟨x, s, rfl, all, stops⟩ := Pattern.exists_run (· != '\n') u
          refine .inr (.inl ⟨x, s, split.symm, fun hx => ?_, stops⟩)
          simpa using all '\n' hx
        · push Not at block
          obtain ⟨u, split, closed⟩ := block
          obtain ⟨x, s, rfl, body⟩ := Text.exists_first_pair closed
          exact .inr (.inr (.inl ⟨x, s, split, body⟩))

/-- What holds of a text holds of it comment by comment and character by character. -/
theorem comment_induction {motive : Text → Prop} (nil : motive [])
    (line : ∀ x s, '\n' ∉ x → Stops (· != '\n') s → motive s → motive ('/' :: '/' :: (x ++ s)))
    (block : ∀ x s, IsBlockBody x → motive s → motive ('/' :: '*' :: (x ++ '*' :: '/' :: s)))
    (plain : ∀ d s, commentPattern.Refuses none (d :: s) → motive s → motive (d :: s)) (t : Text) :
    motive t := by
  induction t using Text.shorter_induction with
  | step t shorter =>
      rcases comment_cases t with rfl | ⟨x, s, rfl, inline, stops⟩ | ⟨x, s, rfl, body⟩ | ⟨d, s, rfl, refuses⟩
      · exact nil
      · refine line x s inline stops (shorter s ?_)
        simp only [List.length_cons, List.length_append]
        omega
      · refine block x s body (shorter s ?_)
        simp only [List.length_cons, List.length_append]
        omega
      · exact plain d s refuses (shorter s (Nat.lt_succ_self _))

theorem stripComments_of_takes (takes : commentPattern.Takes none x [] s) (nonempty : x ≠ []) :
    stripComments (x ++ s) = lineFeeds x ++ stripComments s :=
  Pattern.replaceAll_of_takes rfl takes nonempty

theorem stripComments_line (inline : '\n' ∉ x) (stops : Stops (· != '\n') s) :
    stripComments ('/' :: '/' :: (x ++ s)) = stripComments s := by
  have removed := stripComments_of_takes (takes_lineComment inline stops) (List.cons_ne_nil _ _)
  have none : lineFeeds ('/' :: '/' :: x) = [] := by
    refine List.filter_eq_nil_iff.mpr fun d hd feed => ?_
    rw [beq_iff_eq.mp feed] at hd
    exact inline (by simpa using hd)
  rwa [none] at removed

theorem stripComments_block (body : IsBlockBody x) :
    stripComments ('/' :: '*' :: (x ++ '*' :: '/' :: s)) = lineFeeds x ++ stripComments s := by
  have removed := stripComments_of_takes (s := s) (takes_blockComment body) (List.cons_ne_nil _ _)
  have feeds : lineFeeds ('/' :: '*' :: (x ++ ['*', '/'])) = lineFeeds x := by
    simp [lineFeeds]
  rw [feeds] at removed
  simpa using removed

theorem stripComments_plain (refuses : commentPattern.Refuses none (d :: s)) :
    stripComments (d :: s) = d :: stripComments s :=
  Pattern.replaceAll_of_refuses rfl refuses

theorem stripComments_cons (h : d ≠ '/') : stripComments (d :: s) = d :: stripComments s :=
  stripComments_plain (Pattern.refuses_of_stops rfl (stops_cons.mpr (opens_commentPattern h)))

/-- A text is empty, or it begins with a comment, of either kind, or with a plain character. -/
theorem replacement_induction {motive : Text → Prop} (nil : motive [])
    (comment : ∀ x s, x ≠ [] → commentPattern.Takes none x [] s → motive s → motive (x ++ s))
    (plain : ∀ d s, commentPattern.Refuses none (d :: s) → motive s → motive (d :: s)) (t : Text) : motive t := by
  induction t using comment_induction with
  | nil => exact nil
  | line x s inline stops ih =>
      exact comment ('/' :: '/' :: x) s (List.cons_ne_nil _ _) (takes_lineComment inline stops) ih
  | block x s body ih =>
      have whole := comment ('/' :: '*' :: (x ++ ['*', '/'])) s (List.cons_ne_nil _ _) (takes_blockComment body) ih
      simpa using whole
  | plain d s refuses ih => exact plain d s refuses ih

/-- What is put in the place of a comment has no part of a mark. -/
def Unmarked (replacement : Text → Text) : Prop :=
  ∀ x, ∀ d ∈ replacement x, d ≠ '/' ∧ d ≠ '*'

theorem unmarked_lineFeeds : Unmarked lineFeeds := by
  intro x d hd
  rw [beq_iff_eq.mp (List.mem_filter.mp hd).2]
  exact ⟨by decide, by decide⟩

section Replacement

variable {replacement : Text → Text}

theorem head?_of_replaceAll (h : (commentPattern.replaceAll replacement t).head? = some '/') : t.head? = some '/' := by
  cases t with
  | nil => cases h
  | cons d s =>
      by_contra other
      have refuses : commentPattern.Refuses none (d :: s) :=
        Pattern.refuses_of_stops rfl (stops_cons.mpr (opens_commentPattern fun slash => other (congrArg some slash)))
      rw [Pattern.replaceAll_of_refuses rfl refuses] at h
      exact other h

variable (unmarked : Unmarked replacement)
include unmarked

/-- No closing mark comes about where there was none. -/
theorem not_closing_replaceAll (h : ¬ ['*', '/'] <:+: t) : ¬ ['*', '/'] <:+: commentPattern.replaceAll replacement t := by
  induction t using replacement_induction with
  | nil => exact h
  | comment x s nonempty takes ih =>
      rw [Pattern.replaceAll_of_takes rfl takes nonempty, Text.pair_infix_append]
      rintro (inside | behind | ⟨star, -⟩)
      · exact (unmarked x '*' (inside.subset (by simp))).2 rfl
      · exact ih (fun found => h (found.trans (List.suffix_append x s).isInfix)) behind
      · exact (unmarked x '*' (List.mem_of_getLast? star)).2 rfl
  | plain d s refuses ih =>
      rw [Pattern.replaceAll_of_refuses rfl refuses, Text.pair_infix_cons]
      rw [Text.pair_infix_cons, not_or] at h
      rintro (⟨star, slash⟩ | inside)
      · exact h.1 ⟨star, head?_of_replaceAll slash⟩
      · exact ih h.2 inside

theorem refuses_replaceAll (refuses : commentPattern.Refuses before (d :: s)) :
    commentPattern.Refuses before (d :: commentPattern.replaceAll replacement s) := by
  obtain ⟨line, block⟩ := refuses_commentPattern_iff.mp refuses
  have single : d = '/' → s.head? ≠ some '/' := by
    rintro rfl next
    obtain ⟨s, rfl⟩ := List.head?_eq_some_iff.mp next
    exact line ⟨s, rfl⟩
  refine refuses_commentPattern_iff.mpr ⟨?_, ?_⟩
  · rintro ⟨u, split⟩
    obtain ⟨rfl, rest⟩ := List.cons.inj split
    exact single rfl (head?_of_replaceAll (by rw [← rest]; rfl))
  · intro u split
    obtain ⟨rfl, rest⟩ := List.cons.inj split
    cases s with
    | nil => cases rest
    | cons e s =>
        have other : e ≠ '/' := fun slash => single rfl (congrArg some slash)
        have plain : commentPattern.Refuses none (e :: s) :=
          Pattern.refuses_of_stops rfl (stops_cons.mpr (opens_commentPattern other))
        rw [Pattern.replaceAll_of_refuses rfl plain] at rest
        obtain ⟨rfl, rfl⟩ := List.cons.inj rest
        exact not_closing_replaceAll unmarked (block s rfl)

/-- Wherever one starts to look, no comment begins in a text with its comments replaced. -/
theorem quiet_replaceAll (before : Option Char) (t : Text) :
    commentPattern.Quiet before (commentPattern.replaceAll replacement t) [] := by
  induction t using replacement_induction generalizing before with
  | nil => trivial
  | comment x s nonempty takes ih =>
      rw [Pattern.replaceAll_of_takes rfl takes nonempty]
      refine Pattern.Quiet.append (Pattern.quiet_of_closed rfl fun d hd => ?_) (ih _)
      exact opens_commentPattern (unmarked x d hd).1
  | plain d s refuses ih =>
      rw [Pattern.replaceAll_of_refuses rfl refuses]
      refine ⟨?_, ih _⟩
      rw [List.append_nil]
      exact refuses_replaceAll unmarked ((refuses_commentPattern_iff.trans refuses_commentPattern_iff.symm).mp refuses)

end Replacement

theorem not_slashes_infix_stripComments (source : Text) : ¬ ['/', '/'] <:+: stripComments source := by
  refine Pattern.not_pair_infix_replaceAll rfl (fun d => ?_) (fun before s => ?_) (fun x hx => ?_) source
  · contrapose
    exact fun differs => by simp [opens_commentPattern differs]
  · exact fun refuses => Pattern.not_refuses_exactly_many (Pattern.refuses_orElse.mp refuses).1
  · exact absurd (List.mem_filter.mp hx).2 (by decide)

theorem findAll_stripComments (t : Text) : commentPattern.findAll (stripComments t) = [] :=
  Pattern.findAll_eq_nil_of_quiet rfl (quiet_replaceAll unmarked_lineFeeds none t)

theorem stripComments_stripComments (t : Text) : stripComments (stripComments t) = stripComments t :=
  Pattern.replaceAll_of_quiet _ (quiet_replaceAll unmarked_lineFeeds none t)

def EndsApart (a : Text) : Prop :=
  ∀ e ∈ a.getLast?, e ≠ '/' ∧ e ≠ '*'

theorem EndsApart.of_suffix (apart : EndsApart t) (h : a <:+ t) : EndsApart a := by
  obtain ⟨x, rfl⟩ := h
  intro e he
  exact apart e (by rw [List.getLast?_append, Option.mem_def.mp he]; rfl)

theorem not_closing_insert (apart : EndsApart a) (unclosed : ¬ ['*', '/'] <:+: c)
    (h : ¬ ['*', '/'] <:+: a ++ '\n' :: b) : ¬ ['*', '/'] <:+: a ++ '/' :: '/' :: (c ++ '\n' :: b) := by
  simp only [Text.pair_infix_append, Text.pair_infix_cons, not_or] at h ⊢
  refine ⟨h.1, ⟨by simp, by simp, unclosed, h.2.1, by simp⟩, ?_⟩
  rintro ⟨star, -⟩
  exact (apart '*' star).2 rfl

theorem IsBlockBody.insert (apart : EndsApart a) (unclosed : ¬ ['*', '/'] <:+: c) (body : IsBlockBody (a ++ '\n' :: b)) :
    IsBlockBody (a ++ '/' :: '/' :: (c ++ '\n' :: b)) := by
  have longer : ¬ ['*', '/'] <:+: a ++ '/' :: '/' :: (c ++ '\n' :: (b ++ ['*'])) :=
    not_closing_insert apart unclosed (by simpa [IsBlockBody] using body)
  simpa [IsBlockBody] using longer

theorem lineFeeds_insert (inline : '\n' ∉ c) :
    lineFeeds (a ++ '/' :: '/' :: (c ++ '\n' :: b)) = lineFeeds (a ++ '\n' :: b) := by
  have none : c.filter (· == '\n') = [] := by
    refine List.filter_eq_nil_iff.mpr fun d hd feed => inline ?_
    rwa [← beq_iff_eq.mp feed]
  simp [lineFeeds, none]

theorem refuses_insert (apart : EndsApart (d :: a)) (unclosed : ¬ ['*', '/'] <:+: c)
    (refuses : commentPattern.Refuses before (d :: (a ++ '\n' :: b))) :
    commentPattern.Refuses before (d :: (a ++ '/' :: '/' :: (c ++ '\n' :: b))) := by
  obtain ⟨line, block⟩ := refuses_commentPattern_iff.mp refuses
  refine refuses_commentPattern_iff.mpr ⟨fun front => ?_, fun u split => ?_⟩
  · obtain ⟨rfl, second⟩ := List.cons_prefix_cons.mp front
    cases a with
    | nil => exact (apart '/' rfl).1 rfl
    | cons e a =>
        obtain ⟨rfl, -⟩ := List.cons_prefix_cons.mp second
        exact line ⟨a ++ '\n' :: b, rfl⟩
  · obtain ⟨rfl, second⟩ := List.cons.inj split
    cases a with
    | nil => cases second
    | cons e a =>
        obtain ⟨rfl, rfl⟩ := List.cons.inj second
        exact not_closing_insert (apart.of_suffix ⟨['/', '*'], rfl⟩) unclosed (block _ rfl)

private theorem opening_mark {mark : Char} (other : mark ≠ '\n') (whole : a ++ '\n' :: b = '/' :: mark :: t) :
    ∃ u, a = '/' :: mark :: u ∧ u ++ '\n' :: b = t := by
  rcases a with _ | ⟨e, _ | ⟨f, u⟩⟩
  · cases whole
  · cases whole
    exact absurd rfl other
  · simp only [List.cons_append, List.cons.injEq] at whole
    obtain ⟨rfl, rfl, rest⟩ := whole
    exact ⟨u, rfl, rest⟩

private theorem stripComments_line_insert (inside : '\n' ∉ x) (inline : '\n' ∉ c) (b : Text) :
    stripComments ('/' :: '/' :: (x ++ '/' :: '/' :: (c ++ '\n' :: b))) =
      stripComments ('/' :: '/' :: (x ++ '\n' :: b)) := by
  have ended : Stops (· != '\n') ('\n' :: b) := stops_cons.mpr rfl
  have longer : '\n' ∉ x ++ '/' :: '/' :: c := by simp [inside, inline]
  rw [stripComments_line inside ended, ← stripComments_line longer ended]
  simp

private theorem stripComments_block_insert (apart : EndsApart a) (inline : '\n' ∉ c) (unclosed : ¬ ['*', '/'] <:+: c)
    (body : IsBlockBody (a ++ '\n' :: b)) (s : Text) :
    stripComments ('/' :: '*' :: ((a ++ '/' :: '/' :: (c ++ '\n' :: b)) ++ '*' :: '/' :: s)) =
      stripComments ('/' :: '*' :: ((a ++ '\n' :: b) ++ '*' :: '/' :: s)) := by
  rw [stripComments_block body, stripComments_block (body.insert apart unclosed), lineFeeds_insert inline]

/-- A line comment is as good as none, be it in plain text, in a comment or behind a mark that is never closed. -/
theorem stripComments_insert (apart : EndsApart a) (inline : '\n' ∉ c) (unclosed : ¬ ['*', '/'] <:+: c) (b : Text) :
    stripComments (a ++ '/' :: '/' :: (c ++ '\n' :: b)) = stripComments (a ++ '\n' :: b) := by
  generalize whole : a ++ '\n' :: b = t
  induction t using comment_induction generalizing a with
  | nil => simp at whole
  | line x s inside stops ih =>
      obtain ⟨u, rfl, rest⟩ := opening_mark (by decide) whole
      obtain ⟨v, rfl, rfl⟩ := Text.append_cons_of_not_mem inside rest
      cases v with
      | nil =>
          -- The text in front ends within the comment.
          simpa using stripComments_line_insert inside inline b
      | cons e v =>
          have more := ih (apart.of_suffix ⟨'/' :: '/' :: x, by simp⟩) rfl
          have behind := stripComments_line inside (s := e :: v ++ '/' :: '/' :: (c ++ '\n' :: b)) stops
          rw [stripComments_line inside stops, ← more, ← behind]
          simp
  | block x s body ih =>
      obtain ⟨u, rfl, rest⟩ := opening_mark (by decide) whole
      rcases List.append_eq_append_iff.mp rest with ⟨v, rfl, split⟩ | ⟨v, rfl, split⟩
      · -- The comment is closed behind the insertion.
        rcases v with _ | ⟨e, v⟩
        · cases split
        obtain ⟨rfl, rfl⟩ := List.cons.inj split
        simpa using stripComments_block_insert (apart.of_suffix ⟨['/', '*'], rfl⟩) inline unclosed body s
      · rcases v with _ | ⟨e, _ | ⟨f, v⟩⟩
        · cases split
        · cases split
        simp only [List.cons_append, List.cons.injEq] at split
        obtain ⟨rfl, rfl, rfl⟩ := split
        have more := ih (apart.of_suffix ⟨'/' :: '*' :: (x ++ ['*', '/']), by simp⟩) rfl
        have behind := stripComments_block (s := v ++ '/' :: '/' :: (c ++ '\n' :: b)) body
        rw [stripComments_block body, ← more, ← behind]
        simp
  | plain d s refuses ih =>
      cases a with
      | nil =>
          rw [← whole]
          exact stripComments_line inline (stops_cons.mpr rfl)
      | cons e a =>
          obtain ⟨rfl, rfl⟩ := List.cons.inj whole
          have more := ih (apart.of_suffix (List.suffix_cons e a)) rfl
          rw [stripComments_plain refuses, ← more]
          exact stripComments_plain (refuses_insert apart unclosed refuses)

theorem refuses_append_text (follows : d = '/' → s ≠ []) (closed : ¬ ['/', '*'] <:+: d :: stripComments s)
    (refuses : commentPattern.Refuses before (d :: s)) (u : Text) : commentPattern.Refuses before (d :: (s ++ u)) := by
  obtain ⟨line, block⟩ := refuses_commentPattern_iff.mp refuses
  refine refuses_commentPattern_iff.mpr ⟨fun front => ?_, fun v split => ?_⟩
  · obtain ⟨rfl, second⟩ := List.cons_prefix_cons.mp front
    obtain ⟨e, s, rfl⟩ := List.exists_cons_of_ne_nil (follows rfl)
    obtain ⟨rfl, -⟩ := List.cons_prefix_cons.mp second
    exact line ⟨s, rfl⟩
  · obtain ⟨rfl, second⟩ := List.cons.inj split
    obtain ⟨e, s, rfl⟩ := List.exists_cons_of_ne_nil (follows rfl)
    obtain ⟨rfl, -⟩ := List.cons.inj second
    -- A mark that opens a block would be left in the text without comments.
    refine absurd ⟨[], stripComments s, ?_⟩ closed
    rw [stripComments_cons (by decide)]
    rfl

/-- Behind whole lines that leave no comment open, comments begin anew. -/
theorem stripComments_append (lines : Text.EndsLine t) (closed : ¬ ['/', '*'] <:+: stripComments t) (u : Text) :
    stripComments (t ++ u) = stripComments t ++ stripComments u := by
  induction t using comment_induction with
  | nil => rfl
  | line x s inside stops ih =>
      have more : stripComments (s ++ u) = stripComments s ++ stripComments u :=
        ih (lines.of_suffix ⟨'/' :: '/' :: x, by simp⟩) (by rwa [stripComments_line inside stops] at closed)
      have ended : Stops (· != '\n') (s ++ u) := by
        cases s with
        | cons e s => exact stops
        | nil =>
            -- The comment itself would end with a line feed.
            have last : ['\n'] <:+ '/' :: '/' :: x := by simpa using lines.resolve_left (by simp)
            exact absurd (last.subset List.mem_cons_self) (by simp [inside])
      rw [stripComments_line inside stops, ← more, ← stripComments_line inside ended]
      simp
  | block x s body ih =>
      rw [stripComments_block body] at closed ⊢
      have more : stripComments (s ++ u) = stripComments s ++ stripComments u :=
        ih (lines.of_suffix ⟨'/' :: '*' :: (x ++ ['*', '/']), by simp⟩)
          fun found => closed (found.trans (List.suffix_append _ _).isInfix)
      rw [List.append_assoc, ← more, ← stripComments_block body]
      simp
  | plain d s refuses ih =>
      rw [stripComments_plain refuses] at closed ⊢
      have more : stripComments (s ++ u) = stripComments s ++ stripComments u :=
        ih (lines.of_suffix (List.suffix_cons d s)) fun found => closed (found.trans (List.suffix_cons d _).isInfix)
      rw [List.cons_append, List.cons_append, ← more]
      have follows : d = '/' → s ≠ [] := by
        rintro rfl rfl
        exact absurd (Text.EndsLine.eq_of_concat (t := []) lines) (by decide)
      exact stripComments_plain (refuses_append_text follows closed refuses u)

end Pinout.Verilog
