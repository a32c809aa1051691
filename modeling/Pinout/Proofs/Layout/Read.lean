import Pinout.Proofs.Layout.Unread

/-! # Read tokens

Tokens that a pattern takes whole, whatever the gaps are. A keyword is read with the gap behind it, and a
part that may be missing is skipped where it is refused.
-/

namespace Pinout.Token

variable {α : Type} {token : Token} {tokens behind : List Token} {gaps : List Text} {p q : Pattern}
  {w : Text} {c : Char} {kept : List (Nat × Text)} {Keeps More : List (Nat × Text) → Prop}

/-- The first token is a word, or a character that is neither a blank nor part of a word. -/
inductive Leads : List Token → Prop
  | word {w : Text} (rest : List Token) (nonempty : w ≠ [])
      (word : ∀ c ∈ w, Text.isWord c = true) : Leads (Token.word w :: rest)
  | mark {c : Char} (rest : List Token) (visible : Text.isBlank c = false)
      (plain : Text.isWord c = false) : Leads (Token.mark [c] :: rest)

def EndsPart (separator c : Char) : Prop :=
  c = separator ∨ c = ')'

theorem EndsPart.leads {separator c : Char} (h : EndsPart separator c) (visible : Text.isBlank separator = false)
    (plain : Text.isWord separator = false) (behind : List Token) : Leads (mark [c] :: behind) := by
  rcases h with rfl | rfl
  · exact .mark behind visible plain
  · exact .mark behind (by decide) (by decide)

theorem Leads.stops_blank (h : Leads tokens) (fits : Fits tokens gaps) :
    Pattern.Stops Text.isBlank (layOut tokens gaps) := by
  cases h with
  | @word w rest nonempty word =>
      obtain ⟨gap, gaps, rfl, -, -⟩ := fits.cons
      cases w with
      | nil => exact absurd rfl nonempty
      | cons c w => exact Pattern.stops_cons.mpr (Text.not_isBlank_of_isWord (word c (by simp)))
  | @mark c rest visible plain =>
      obtain ⟨gap, gaps, rfl, -, -⟩ := fits.cons
      exact Pattern.stops_cons.mpr visible

theorem Leads.stops_word {gap : Text} (h : Leads tokens) (fits : Fits tokens gaps)
    (gapFits : token.Gap tokens gap) (isWord : token.isWord = true) :
    Pattern.Stops Text.isWord (gap ++ layOut tokens gaps) := by
  cases h with
  | word rest nonempty word => exact Pattern.stops_gap gapFits.blank (.inl (gapFits.apart isWord rfl))
  | @mark c rest visible plain =>
      obtain ⟨gap, gaps, rfl, -, -⟩ := fits.cons
      exact Pattern.stops_gap gapFits.blank (.inr (Pattern.stops_cons.mpr plain))

/-- In front of `behind` the pattern takes the tokens, up to a last gap, and keeps what `Keeps`
foresees. -/
def Read (p : Pattern) (tokens behind : List Token) (Keeps : List (Nat × Text) → Prop) : Prop :=
  ∀ gaps, Fits (tokens ++ behind) gaps → ∃ x kept gap gaps',
    layOut (tokens ++ behind) gaps = x ++ (gap ++ layOut behind gaps') ∧
      (∀ c ∈ gap, Text.isBlank c = true) ∧ Fits behind gaps' ∧ Keeps kept ∧
      ∀ before, p.Takes before x kept (gap ++ layOut behind gaps')

theorem read_last (leads : Leads behind)
    (takes : ∀ before s, Pattern.Stops Text.isWord s → p.Takes before w kept s) :
    Read p [Token.word w] behind (· = kept) := by
  intro gaps fits
  obtain ⟨gap, gaps, rfl, gapFits, fits⟩ := fits.cons
  exact ⟨w, kept, gap, gaps, rfl, gapFits.blank, fits, rfl, fun before =>
    takes before _ (leads.stops_word fits gapFits rfl)⟩

theorem Read.cons (leads : Leads (tokens ++ behind))
    (takes : ∀ before gap s, token.Gap (tokens ++ behind) gap → Pattern.Stops Text.isBlank s →
      (token.isWord = true → Pattern.Stops Text.isWord (gap ++ s)) →
      p.Takes before (token.text ++ gap) kept s)
    (h : Read q tokens behind Keeps) :
    Read (p ++ q) (token :: tokens) behind (fun all => ∃ more, Keeps more ∧ all = more ++ kept) := by
  intro gaps fits
  obtain ⟨gap, gaps, rfl, gapFits, fits⟩ := fits.cons
  obtain ⟨x, more, last, gaps', split, blank, fits', keeps, further⟩ := h gaps fits
  refine ⟨token.text ++ gap ++ x, more ++ kept, last, gaps', ?_, blank, fits', ⟨more, keeps, rfl⟩,
    fun before => ?_⟩
  · rw [List.cons_append, layOut, split]
    simp
  · have stops := leads.stops_blank fits
    rw [split] at stops
    refine (takes before gap _ gapFits stops fun isWord => ?_).append (further _)
    rw [← split]
    exact leads.stops_word fits gapFits isWord

theorem Read.keyword (leads : Leads (tokens ++ behind)) (nonempty : w ≠ [])
    (word : ∀ c ∈ w, Text.isWord c = true) (takes : ∀ before s, p.Takes before w kept s)
    (h : Read q tokens behind Keeps) :
    Read (p ++ .boundary ++ .blanks ++ q) (Token.word w :: tokens) behind
      (fun all => ∃ more, Keeps more ∧ all = more ++ kept) :=
  h.cons leads fun before gap s gapFits stops wordEnds =>
    ((takes before (gap ++ s)).edge nonempty word (wordEnds rfl)).blanks gapFits.blank stops

theorem Read.optional (h : Read (p ++ q) tokens behind Keeps) :
    Read (Pattern.optional p ++ q) tokens behind Keeps := by
  intro gaps fits
  obtain ⟨x, kept, gap, gaps', split, blank, fits', keeps, takes⟩ := h gaps fits
  exact ⟨x, kept, gap, gaps', split, blank, fits', keeps, fun before => (takes before).optional⟩

theorem Read.skip
    (refuses : ∀ before gaps, Fits (tokens ++ behind) gaps →
      (p ++ q).Refuses before (layOut (tokens ++ behind) gaps))
    (h : Read q tokens behind Keeps) : Read (Pattern.optional p ++ q) tokens behind Keeps := by
  intro gaps fits
  obtain ⟨x, kept, gap, gaps', split, blank, fits', keeps, takes⟩ := h gaps fits
  refine ⟨x, kept, gap, gaps', split, blank, fits', keeps, fun before => .skip ?_ (takes before)⟩
  rw [← split]
  exact refuses before gaps fits

theorem Read.imp (h : Read p tokens behind Keeps) (keeps : ∀ kept, Keeps kept → More kept) :
    Read p tokens behind More := by
  intro gaps fits
  obtain ⟨x, kept, gap, gaps', split, blank, fits', kept', takes⟩ := h gaps fits
  exact ⟨x, kept, gap, gaps', split, blank, fits', keeps kept kept', takes⟩

theorem Read.congr (h : Read p tokens behind Keeps)
    (same : ∀ before t, q.readings before t = p.readings before t) : Read q tokens behind Keeps := by
  intro gaps fits
  obtain ⟨x, kept, gap, gaps', split, blank, fits', keeps, takes⟩ := h gaps fits
  refine ⟨x, kept, gap, gaps', split, blank, fits', keeps, fun before => ?_⟩
  rw [Pattern.Takes, same]
  exact takes before

theorem Read.assoc {r : Pattern} (h : Read (p ++ q ++ r) tokens behind Keeps) :
    Read (p ++ (q ++ r)) tokens behind Keeps :=
  h.congr fun before t => (Pattern.readings_append_assoc p q r before t).symm

end Pinout.Token
