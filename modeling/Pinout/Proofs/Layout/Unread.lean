import Pinout.Proofs.Layout.Basic

/-! # Unread tokens

Tokens at which a pattern finds nothing, whatever the gaps are. A scan passes over them.
-/

namespace Pinout.Token

variable {token : Token} {tokens behind : List Token} {gaps : List Text}
  {p : Pattern} {t : Text} {c : Char}

/-- In front of `behind`, the tokens are quiet in every layout. -/
def Unread (p : Pattern) (tokens behind : List Token) : Prop :=
  ∀ gaps, Fits (tokens ++ behind) gaps → ∀ before,
    p.Quiet before (layOut tokens gaps) (layOut behind (gaps.drop tokens.length))

theorem Unread.nil : Unread p [] behind := by
  intro gaps _ before
  cases gaps <;> trivial

theorem Unread.append {more : List Token} (first : Unread p tokens (more ++ behind))
    (second : Unread p more behind) : Unread p (tokens ++ more) behind := by
  intro gaps fits before
  rw [List.append_assoc] at fits
  have quiet := first gaps fits before
  have quiet' := second _ fits.drop (lastOf before (layOut tokens gaps))
  rw [layOut_append] at quiet
  rw [layOut_append, List.length_append, ← List.drop_drop]
  exact quiet.append quiet'

theorem Unread.cons (first : Unread p [token] (tokens ++ behind)) (second : Unread p tokens behind) :
    Unread p (token :: tokens) behind :=
  first.append second

theorem Unread.append_all {more : List Token} (first : Unread p tokens more)
    (second : Unread p more []) : Unread p (tokens ++ more) [] := by
  rw [← List.append_nil more] at first
  exact first.append second

theorem unread_separated {separator : Text} {parts : List (List Token)}
    (between : ∀ behind, Unread p [mark separator] behind)
    (inner : ∀ part ∈ parts, ∀ behind, Unread p part (mark separator :: behind))
    (last : ∀ part ∈ parts, Unread p part behind) : Unread p (separated separator parts) behind := by
  induction parts with
  | nil => exact .nil
  | cons part parts ih =>
      cases parts with
      | nil => exact last part (by simp)
      | cons next parts =>
          have rest := ih (fun part hp => inner part (List.mem_cons_of_mem _ hp))
            (fun part hp => last part (List.mem_cons_of_mem _ hp))
          exact (inner part (by simp) _).append ((between _).cons rest)

theorem Unread.quiet (h : Unread p tokens []) (fits : Fits tokens gaps) (before : Option Char) :
    p.Quiet before (layOut tokens gaps) [] := by
  rw [← List.append_nil tokens] at fits
  exact h gaps fits before

section SkipsBlanks

variable (skips : p.SkipsBlanks)
include skips

theorem unread_of_quiet
    (quiet : ∀ before gap gaps, token.Gap behind gap → Fits behind gaps →
      p.Quiet before token.text (gap ++ layOut behind gaps)) : Unread p [token] behind := by
  intro gaps fits before
  obtain ⟨gap, gaps, rfl, gapFits, fits⟩ := fits.cons
  have alone : layOut [token] (gap :: gaps) = token.text ++ gap := by
    cases gaps <;> simp [layOut]
  rw [alone]
  exact (quiet before gap gaps gapFits fits).append (skips.quiet gapFits.blank)

theorem unread_of_closed (closed : ∀ c ∈ token.text, p.opens c = false) : Unread p [token] behind :=
  unread_of_quiet skips fun _ _ _ _ _ => Pattern.quiet_of_closed skips.reads closed

theorem unread_word (begins : p.BeginsWord) (word : ∀ c ∈ t, Text.isWord c = true)
    (refuses : ∀ before gap gaps, (Token.word t).Gap behind gap → Fits behind gaps →
      p.Refuses before (t ++ (gap ++ layOut behind gaps))) : Unread p [Token.word t] behind :=
  unread_of_quiet skips fun before gap gaps gapFits fits =>
    begins.quiet_of_word word (refuses before gap gaps gapFits fits)

/-- A pattern that is led by a keyword finds nothing in another one. -/
theorem unread_spelling {q : Pattern} {keyword other : Text} (begins : p.BeginsWord)
    (led : ∀ before t, (.keyword other ++ q : Pattern).Refuses before t → p.Refuses before t) (s : Spelling keyword)
    (key : ∀ letter ∈ keyword, Pattern.isKeyLetter letter = true) (key' : ∀ letter ∈ other, Pattern.isKeyLetter letter = true)
    (differs : ¬ other <+: keyword ∧ ¬ keyword <+: other) (behind : List Token) :
    Unread p [Token.word s.text] behind :=
  unread_word skips begins (s.word key) fun _ _ _ _ _ => led _ _ (s.refuses key key' differs).append

/-- A scan passes over unread tokens and a mark, and then no word character is in front of it. -/
theorem Unread.scan_mark (h : Unread p tokens (mark [c] :: behind)) (plain : Text.isWord c = false)
    (closed : p.opens c = false) (fits : Fits (tokens ++ mark [c] :: behind) gaps) :
    ∃ front gaps', front.any Text.isWord = false ∧ Fits behind gaps' ∧
      ∀ before, p.scan before (layOut (tokens ++ mark [c] :: behind) gaps) =
        p.scan front (layOut behind gaps') := by
  have quiet := h gaps fits
  have split := layOut_append tokens (mark [c] :: behind) gaps
  obtain ⟨gap, gaps', dropped, gapFits, fits'⟩ := fits.drop.cons
  rw [dropped] at quiet split
  have quietMark : ∀ before, p.Quiet before (c :: gap) (layOut behind gaps') := fun before =>
    ⟨Pattern.refuses_of_stops skips.reads (Pattern.stops_cons.mpr closed), skips.quiet gapFits.blank⟩
  refine ⟨lastOf (some c) gap, gaps', ?_, fits', fun before => ?_⟩
  · exact Pattern.any_lastOf_eq_false plain gapFits.not_word
  · rw [split, Pattern.scan_of_quiet (quiet before)]
    exact Pattern.scan_of_quiet (quietMark _)

end SkipsBlanks

end Pinout.Token
