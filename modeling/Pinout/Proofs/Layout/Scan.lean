import Pinout.Proofs.Layout.Read
import Pinout.Proofs.Pattern.Names

/-! # Scanned tokens

A scan goes through laid out tokens from left to right. It passes over unread tokens, it finds once what
is read, and what it finds in tokens behind each other it finds in the whole. So a list of declarations
is scanned one declaration after the other.
-/

namespace Pinout.Token

variable {α : Type} {token : Token} {tokens more behind : List Token} {gaps : List Text} {p q : Pattern}
  {w : Text} {c : Char} {Keeps : List (Nat × Text) → Prop} {Finds Others : List Reading → Prop}

/-- No word character stands in front of a word. -/
def Apart (before : Option Char) (tokens : List Token) : Prop :=
  tokens.head?.any Token.isWord = true → before.any Text.isWord = false

theorem apart_mark (before : Option Char) (t : Text) (tokens : List Token) :
    Apart before (mark t :: tokens) := by
  intro h
  cases h

/-- In front of `behind`, a scan finds in the tokens what `Finds` foresees, whatever the gaps are. -/
def Scans (p : Pattern) (tokens behind : List Token) (Finds : List Reading → Prop) : Prop :=
  ∀ gaps before, Fits (tokens ++ behind) gaps → Apart before (tokens ++ behind) →
    ∃ rs gaps' before', Finds rs ∧ Fits behind gaps' ∧ Apart before' behind ∧
      p.scan before (layOut (tokens ++ behind) gaps) = rs ++ p.scan before' (layOut behind gaps')

theorem Scans.nil : Scans p [] behind (· = []) := by
  intro gaps before fits apart
  exact ⟨[], gaps, before, rfl, fits, apart, rfl⟩

theorem Scans.imp (h : Scans p tokens behind Finds) (finds : ∀ rs, Finds rs → Others rs) :
    Scans p tokens behind Others := by
  intro gaps before fits apart
  obtain ⟨rs, gaps', before', found, rest⟩ := h gaps before fits apart
  exact ⟨rs, gaps', before', finds rs found, rest⟩

theorem Scans.append (first : Scans p tokens (more ++ behind) Finds) (second : Scans p more behind Others) :
    Scans p (tokens ++ more) behind fun rs => ∃ xs ys, Finds xs ∧ Others ys ∧ rs = xs ++ ys := by
  intro gaps before fits apart
  rw [List.append_assoc] at fits apart ⊢
  obtain ⟨xs, gaps₁, before₁, found, fits₁, apart₁, here⟩ := first gaps before fits apart
  obtain ⟨ys, gaps₂, before₂, others, fits₂, apart₂, there⟩ := second gaps₁ before₁ fits₁ apart₁
  refine ⟨xs ++ ys, gaps₂, before₂, ⟨xs, ys, found, others, rfl⟩, fits₂, apart₂, ?_⟩
  rw [here, there, List.append_assoc]

theorem Scans.prepend (first : Scans p tokens (more ++ behind) (· = [])) (second : Scans p more behind Others) :
    Scans p (tokens ++ more) behind Others := by
  refine (first.append second).imp ?_
  rintro _ ⟨_, ys, rfl, others, rfl⟩
  exact others

theorem Unread.scans (h : Unread p tokens behind)
    (apart : ∀ gaps before, Fits (tokens ++ behind) gaps → Apart (lastOf before (layOut tokens gaps)) behind) :
    Scans p tokens behind (· = []) := by
  intro gaps before fits _
  refine ⟨[], gaps.drop tokens.length, _, rfl, fits.drop, apart gaps before fits, ?_⟩
  rw [layOut_append, Pattern.scan_of_quiet (h gaps fits before), List.nil_append]

theorem Unread.scans_ahead {t : Text} (h : Unread p tokens (mark t :: behind)) :
    Scans p tokens (mark t :: behind) (· = []) :=
  h.scans fun _ _ _ => apart_mark _ t behind

theorem layOut_singleton (token : Token) (gap : Text) (gaps : List Text) :
    layOut [token] (gap :: gaps) = token.text ++ gap := by
  cases gaps <;> simp [layOut]

theorem Unread.scans_word (h : Unread p [Token.word w] behind) : Scans p [Token.word w] behind (· = []) := by
  refine h.scans fun gaps before fits next => ?_
  obtain ⟨gap, gaps, rfl, gapFits, -⟩ := fits.cons
  obtain ⟨c, hc, last⟩ := lastOf_mem (lastOf before w) (gapFits.apart rfl next)
  rw [layOut_singleton, lastOf_append]
  change (lastOf (lastOf before w) gap).any Text.isWord = false
  rw [last]
  exact gapFits.not_word c hc

section SkipsBlanks

variable (skips : p.SkipsBlanks)
include skips

theorem scans_mark (plain : Text.isWord c = false) (closed : p.opens c = false) (behind : List Token) :
    Scans p [mark [c]] behind (· = []) := by
  have unread : Unread p [mark [c]] behind :=
    unread_of_closed skips fun d hd => by rwa [List.mem_singleton.mp hd]
  refine unread.scans fun gaps before fits _ => ?_
  obtain ⟨gap, gaps, rfl, gapFits, -⟩ := fits.cons
  rw [layOut_singleton]
  change (lastOf (some c) gap).any Text.isWord = false
  exact Pattern.any_lastOf_eq_false plain gapFits.not_word

/-- The pattern `p` reads at a word what `q` reads there, unless a word character stands in front. -/
def ReadsAtWord (p q : Pattern) : Prop :=
  ∀ before c t, before.any Text.isWord = false → Text.isWord c = true →
    p.readings before (c :: t) = q.readings before (c :: t)

def StartsWord (tokens : List Token) : Prop :=
  ∃ w rest, tokens = Token.word w :: rest ∧ w ≠ [] ∧ ∀ c ∈ w, Text.isWord c = true

theorem Read.scans (same : ReadsAtWord p q) (h : Read q tokens behind Keeps) (starts : StartsWord tokens)
    (ends : behind.head?.any Token.isWord = true → q.EndsWord ∧ StartsWord behind) :
    Scans p tokens behind fun rs => ∃ r, Keeps r.kept ∧ rs = [r] := by
  intro gaps before fits apart
  obtain ⟨x, kept, gap, gaps', split, blank, fits', keeps, takes⟩ := h gaps fits
  obtain ⟨w, rest, rfl, nonempty, word⟩ := starts
  have taken : p.Takes before x kept (gap ++ layOut behind gaps') := by
    have first := takes before
    rw [Pattern.Takes, ← split] at first ⊢
    obtain ⟨_, _, rfl, -, -⟩ := fits.cons
    cases w with
    | nil => exact absurd rfl nonempty
    | cons c w =>
        rw [← first]
        exact congrArg List.head? (same before c _ (apart rfl) (word c (by simp)))
  refine ⟨[⟨x, kept⟩], gaps', lastOf (lastOf before x) gap, ⟨_, keeps, rfl⟩, fits', fun next => ?_, ?_⟩
  · obtain ⟨endsWord, v, _, rfl, visible, runs⟩ := ends next
    cases gap with
    | nil =>
        obtain ⟨_, _, rfl, -, -⟩ := fits'.cons
        obtain ⟨c, v, rfl⟩ := List.exists_cons_of_ne_nil visible
        have stops := endsWord before x kept _ (takes before) c rfl
        rw [runs c (by simp)] at stops
        cases stops
    | cons d gap =>
        obtain ⟨e, he, last⟩ := lastOf_mem (lastOf before x) (List.cons_ne_nil d gap)
        rw [last]
        exact Text.isWord_of_isBlank (blank e he)
  · rw [split, Pattern.scan_of_takes taken (taken.ne_nil skips.reads),
      Pattern.scan_of_quiet (skips.quiet blank)]
    rfl

theorem scans_separated {separator closing : Char} (plain : Text.isWord separator = false)
    (closed : p.opens separator = false) {tokensOf : α → List Token} {FindsOf : α → List Reading → Prop}
    (items : List α)
    (scans : ∀ item ∈ items, ∀ c behind, c = separator ∨ c = closing →
      Scans p (tokensOf item) (mark [c] :: behind) (FindsOf item)) :
    Scans p (separated [separator] (items.map tokensOf)) (mark [closing] :: behind) fun rs =>
      ∃ parts, List.Forall₂ FindsOf items parts ∧ rs = parts.flatten := by
  induction items with
  | nil => exact Scans.nil.imp fun rs nothing => ⟨[], .nil, nothing⟩
  | cons item items ih =>
      have rest := ih fun item hi => scans item (List.mem_cons_of_mem _ hi)
      cases items with
      | nil =>
          refine (scans item (by simp) closing behind (.inr rfl)).imp fun rs finds => ?_
          exact ⟨[rs], .cons finds .nil, (List.append_nil rs).symm⟩
      | cons next items =>
          have others := (scans_mark skips plain closed _).prepend rest
          refine ((scans item (by simp) separator _ (.inl rfl)).append others).imp ?_
          rintro _ ⟨first, _, finds, ⟨parts, all, rfl⟩, rfl⟩
          exact ⟨first :: parts, .cons finds all, rfl⟩

/-- A scan of a list between brackets, with nothing else to be found, finds what it finds in the parts of
the list. -/
theorem scan_list {opening separator closing : Char} (plain : Text.isWord separator = false)
    (closed : p.opens separator = false) (plainOpening : Text.isWord opening = false)
    (closedOpening : p.opens opening = false) {tokensOf : α → List Token}
    {FindsOf : α → List Reading → Prop} (items : List α) {ahead : List Token}
    (scans : ∀ item ∈ items, ∀ c behind, c = separator ∨ c = closing →
      Scans p (tokensOf item) (mark [c] :: behind) (FindsOf item))
    (unreadAhead : ∀ behind, Unread p ahead (mark [opening] :: behind))
    (unreadBehind : Unread p (mark [closing] :: behind) [])
    (fits : Fits (ahead ++ mark [opening] ::
      (separated [separator] (items.map tokensOf) ++ mark [closing] :: behind)) gaps) :
    ∃ parts, List.Forall₂ FindsOf items parts ∧
      p.scan none (layOut (ahead ++ mark [opening] ::
        (separated [separator] (items.map tokensOf) ++ mark [closing] :: behind)) gaps) = parts.flatten := by
  have parts : Scans p (separated [separator] (items.map tokensOf)) (mark [closing] :: behind) _ :=
    scans_separated skips plain closed items scans
  have list := (scans_mark skips plainOpening closedOpening _).prepend parts
  have whole := (unreadAhead _).scans_ahead.prepend list
  rw [← List.cons_append, ← List.singleton_append, ← List.append_assoc] at fits ⊢
  obtain ⟨_, gaps', before, ⟨parts, all, rfl⟩, fits', -, found⟩ := whole gaps none fits fun _ => rfl
  refine ⟨parts, all, ?_⟩
  rw [found, Pattern.scan_eq_nil_of_quiet skips.reads (unreadBehind.quiet fits' before), List.append_nil]

omit skips in
/-- Parts that are read once each are found once each. -/
theorem flatten_of_read {KeepsOf : α → List (Nat × Text) → Prop} {items : List α} {parts : List (List Reading)}
    (h : List.Forall₂ (fun item rs => ∃ r : Reading, KeepsOf item r.kept ∧ rs = [r]) items parts) :
    List.Forall₂ (fun item r => KeepsOf item r.kept) items parts.flatten := by
  induction h with
  | nil => exact .nil
  | cons first _ ih =>
      obtain ⟨r, keeps, rfl⟩ := first
      exact .cons keeps ih

end SkipsBlanks

end Pinout.Token
