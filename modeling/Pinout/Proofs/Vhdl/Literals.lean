import Mathlib.Algebra.Ring.Parity
import Mathlib.Data.List.DropRight
import Pinout.Proofs.Pattern.Passage
import Pinout.Proofs.Vhdl.Comments

/-! # String literals

A text is read from left to right as string literals and other characters. A quote opens a literal if
another one follows it on its line, so behind an even number of quotes on a line the next literal is masked
whole, whatever it holds.
-/

namespace Pinout

def Text.lastLine (t : Text) : Text :=
  t.rtakeWhile (· != '\n')

namespace Text

variable {s t : Text}

theorem lastLine_append_of_mem (h : '\n' ∈ t) : lastLine (s ++ t) = lastLine t := by
  have short : (t.reverse.takeWhile (· != '\n')).length ≠ t.reverse.length := by
    intro whole
    have all := List.takeWhile_eq_self_iff.mp (List.IsPrefix.eq_of_length (List.takeWhile_prefix _) whole)
    simpa using all '\n' (List.mem_reverse.mpr h)
  rw [lastLine, List.rtakeWhile, List.reverse_append, List.takeWhile_append, if_neg short, lastLine, List.rtakeWhile]

theorem lastLine_append (h : '\n' ∉ t) : lastLine (s ++ t) = lastLine s ++ t := by
  have unbroken : ∀ c ∈ t.reverse, (c != '\n') = true := fun c hc =>
    bne_iff_ne.mpr fun same => h (same ▸ List.mem_reverse.mp hc)
  rw [lastLine, List.rtakeWhile, List.reverse_append, List.takeWhile_append_of_pos unbroken, List.reverse_append,
    List.reverse_reverse, lastLine, List.rtakeWhile]

end Text

namespace Vhdl

open Pattern (Stops stops_cons)

variable {a b s t x : Text} {c : Char}

def literal (s : Text) : Text :=
  '"' :: (s ++ ['"'])

theorem length_literal (s : Text) : (literal s).length = s.length + 2 := by
  simp [literal]

/-- What a string literal may hold. -/
structure IsContents (s : Text) : Prop where
  unquoted : '"' ∉ s
  inline : '\n' ∉ s

instance (s : Text) : Decidable (IsContents s) :=
  decidable_of_iff ('"' ∉ s ∧ '\n' ∉ s) ⟨fun ⟨unquoted, inline⟩ => ⟨unquoted, inline⟩,
    fun h => ⟨h.unquoted, h.inline⟩⟩

theorem IsContents.inside (h : IsContents x) : ∀ c ∈ x, (c != '"' && c != '\n') = true := by
  intro c hc
  rw [Bool.and_eq_true, bne_iff_ne, bne_iff_ne]
  exact ⟨fun same => h.unquoted (same ▸ hc), fun same => h.inline (same ▸ hc)⟩

/-- The last line of the text leaves no literal open. -/
def QuotesPaired (a : Text) : Prop :=
  Even (a.lastLine.count '"')

instance (a : Text) : Decidable (QuotesPaired a) :=
  inferInstanceAs (Decidable (Even _))

/-- What holds of a text holds of it literal by literal and character by character. -/
theorem string_induction {motive : Text → Prop} (nil : motive [])
    (quoted : ∀ x s, IsContents x → motive s → motive (literal x ++ s))
    (unclosed : ∀ x s, IsContents x → Stops (· != '\n') s → motive s → motive ('"' :: (x ++ s)))
    (plain : ∀ c s, c ≠ '"' → motive s → motive (c :: s)) (t : Text) : motive t := by
  induction t using Text.shorter_induction with
  | step t shorter =>
      cases t with
      | nil => exact nil
      | cons c t =>
          by_cases quote : c = '"'
          · subst quote
            obtain ⟨x, s, rfl, all, stops⟩ := Pattern.exists_run (fun c => c != '"' && c != '\n') t
            have contents : IsContents x := ⟨fun hx => by simpa using all _ hx, fun hx => by simpa using all _ hx⟩
            simp only [List.length_cons, List.length_append] at shorter
            cases s with
            | nil => exact unclosed x [] contents Pattern.stops_nil (shorter [] (by simp))
            | cons d s =>
                rw [List.length_cons] at shorter
                by_cases closing : d = '"'
                · subst closing
                  have text : '"' :: (x ++ '"' :: s) = literal x ++ s := by simp [literal]
                  rw [text]
                  exact quoted x s contents (shorter s (by omega))
                · refine unclosed x (d :: s) contents (stops_cons.mpr ?_) (shorter _ (by rw [List.length_cons]; omega))
                  simpa [closing] using stops_cons.mp stops
          · exact plain c t quote (shorter t (Nat.lt_succ_self _))

theorem opens_stringPattern (h : c ≠ '"') : stringPattern.opens c = false := by
  simp [stringPattern, Pattern.char, Pattern.opens, Pattern.nullable, h]

theorem IsContents.refuses_closing (h : IsContents x) (stops : Stops (· != '\n') s) {before : Option Char} :
    (.many (fun c => c != '"' && c != '\n') ++ .char '"' : Pattern).Refuses before (x ++ s) := by
  have ends : Stops (fun c => c != '"' && c != '\n') s := fun c hc => by simp [stops c hc]
  refine Pattern.refuses_many_run h.inside ends rfl (fun c inside => ?_) (Pattern.refuses_of_stops rfl fun c hc => ?_)
  · have other := (Bool.and_eq_true_iff.mp inside).1
    simpa [Pattern.char, Pattern.opens] using other
  · have break' : c = '\n' := by simpa using stops c hc
    rw [break']
    decide

theorem takes_stringPattern (h : IsContents x) (before : Option Char) :
    stringPattern.Takes before (literal x) [] s := by
  have text : literal x = ['"'] ++ (x ++ ['"']) := rfl
  rw [stringPattern, Pattern.Takes.assoc, text]
  exact Pattern.takes_char.append (.append (.many h.inside (stops_cons.mpr rfl)) Pattern.takes_char)

theorem maskStrings_quoted (h : IsContents x) :
    maskStrings (literal x ++ s) = List.replicate (literal x).length ' ' ++ maskStrings s :=
  Pattern.replaceAll_of_takes rfl (takes_stringPattern h none) (List.cons_ne_nil _ _)

theorem maskStrings_plain (h : c ≠ '"') : maskStrings (c :: s) = c :: maskStrings s := by
  have refuses : stringPattern.Refuses none (c :: s) :=
    Pattern.refuses_of_stops rfl (stops_cons.mpr (opens_stringPattern h))
  exact Pattern.replaceAll_of_refuses rfl refuses

theorem maskStrings_unquoted (h : '"' ∉ x) (s : Text) : maskStrings (x ++ s) = x ++ maskStrings s := by
  have quiet : stringPattern.Passes x := Pattern.passes_of_closed rfl fun c hc =>
    opens_stringPattern fun same => h (same ▸ hc)
  rw [maskStrings, Pattern.replaceAll_eq_rewrite, quiet.rewrites, Pattern.rewrite_anywhere rfl _ none,
    ← Pattern.replaceAll_eq_rewrite, maskStrings]

theorem maskStrings_of_not_mem (h : '"' ∉ x) : maskStrings x = x := by
  have whole := maskStrings_unquoted h []
  rw [List.append_nil] at whole
  exact whole.trans (List.append_nil x)

theorem maskStrings_unclosed (h : IsContents x) (stops : Stops (· != '\n') s) :
    maskStrings ('"' :: (x ++ s)) = '"' :: (x ++ maskStrings s) := by
  have opening : stringPattern.Refuses none ('"' :: (x ++ s)) := by
    rw [stringPattern, Pattern.refuses_append_assoc]
    refine Pattern.refuses_append fun a t ha split => ?_
    obtain ⟨-, rfl⟩ := Pattern.mem_char.mp ha
    obtain rfl := (List.cons.inj split).2
    exact h.refuses_closing stops
  have first : maskStrings ('"' :: (x ++ s)) = '"' :: maskStrings (x ++ s) :=
    Pattern.replaceAll_of_refuses rfl opening
  rw [first, maskStrings_unquoted h.unquoted]

theorem exists_contents_of_mem {before : Option Char} {r : Reading} (h : r ∈ stringPattern.readings before t) :
    ∃ x, IsContents x ∧ r.text = literal x := by
  obtain ⟨opened, hopened, _, -, closing, hclosing, rfl⟩ := Pattern.exists_of_mem_append h
  obtain ⟨opening, hopening, _, -, inside, hinside, rfl⟩ := Pattern.exists_of_mem_append hopened
  obtain ⟨-, rfl⟩ := Pattern.mem_char.mp hopening
  obtain ⟨-, rfl⟩ := Pattern.mem_char.mp hclosing
  have plain := (Pattern.mem_many.mp hinside).2.1
  exact ⟨inside.text, ⟨fun hx => by simpa using plain _ hx, fun hx => by simpa using plain _ hx⟩, rfl⟩

theorem search?_stringPattern_eq_none_iff (t : Text) :
    stringPattern.search? t = none ↔ ∀ x, IsContents x → ¬ literal x <:+: t := by
  constructor
  · rintro none x contents ⟨u, v, rfl⟩
    have quiet := Pattern.quiet_of_find?_eq_none none
    rw [List.append_assoc] at quiet
    have refused := Pattern.Quiet.refuses (c := '"') (y := x ++ ['"'] ++ v) quiet
    rw [List.append_nil] at refused
    exact (takes_stringPattern contents _).not_refuses refused
  · intro none
    cases search : stringPattern.search? t with
    | none => rfl
    | some found =>
        obtain ⟨u, s, rfl, -, takes, -⟩ := Pattern.exists_of_find? rfl search
        obtain ⟨x, contents, text⟩ := exists_contents_of_mem takes.mem
        rw [text] at none
        exact absurd ⟨u, s, List.append_assoc _ _ _⟩ (none x contents)

/-- A literal with a part without quotes taken out is a literal. -/
theorem exists_literal_infix {g u v : Text} (absent : '"' ∉ g) (contents : IsContents x)
    (h : literal x <:+: u ++ (g ++ v)) : ∃ y, IsContents y ∧ literal y <:+: u ++ v := by
  have begins : ∀ {p q : Text}, p ≠ [] → literal x = p ++ q → ∃ z, p = '"' :: z ∧ z ++ q = x ++ ['"'] := by
    intro p q nonempty split
    obtain ⟨c, z, rfl⟩ := List.exists_cons_of_ne_nil nonempty
    obtain ⟨rfl, rest⟩ := List.cons.inj split
    exact ⟨z, rfl, rest.symm⟩
  rcases List.infix_append_iff_ne_nil.mp h with left | right | ⟨p, q, hp, hq, split, back, front⟩
  · exact ⟨x, contents, left.trans (List.prefix_append u v).isInfix⟩
  · rcases List.infix_append_iff_ne_nil.mp right with inside | behind | ⟨p, q, hp, -, split, back, -⟩
    · exact absurd (inside.subset List.mem_cons_self) absent
    · exact ⟨x, contents, behind.trans (List.suffix_append u v).isInfix⟩
    · obtain ⟨z, rfl, -⟩ := begins hp split
      exact absurd (back.subset List.mem_cons_self) absent
  · obtain ⟨z, rfl, rest⟩ := begins hp split
    obtain ⟨r, joined⟩ := front
    have closes : ∀ {w : Text}, w ≠ [] → (∃ y, y ++ w = x ++ ['"']) → ∃ y, w = y ++ ['"'] := by
      rintro w nonempty ⟨y, same⟩
      rw [← List.dropLast_append_getLast nonempty, ← List.append_assoc] at same
      have last := (List.append_inj' same rfl).2
      exact ⟨w.dropLast, by rw [← last, List.dropLast_append_getLast]⟩
    obtain ⟨w, rfl⟩ := closes hq ⟨z, rest⟩
    rcases List.append_eq_append_iff.mp joined with ⟨m, rfl, -⟩ | ⟨m, parts, rfl⟩
    · simp at absent
    · cases m using List.reverseRecOn with
      | nil =>
          rw [List.append_nil] at parts
          exact absurd (parts ▸ by simp) absent
      | append_singleton m c =>
          rw [← List.append_assoc] at parts
          obtain ⟨rfl, last⟩ := List.append_inj' parts rfl
          obtain rfl : '"' = c := by simpa using last
          rw [← List.append_assoc] at rest
          obtain ⟨rfl, -⟩ := List.append_inj' rest rfl
          refine ⟨z ++ m, ⟨fun hc => contents.unquoted ?_, fun hc => contents.inline ?_⟩, ?_⟩
          · rcases List.mem_append.mp hc with hc | hc <;> simp [hc]
          · rcases List.mem_append.mp hc with hc | hc <;> simp [hc]
          · obtain ⟨f, rfl⟩ := back
            exact ⟨f, r, by simp [literal]⟩

theorem quotesPaired_append (h : QuotesPaired x) : QuotesPaired (x ++ s) ↔ QuotesPaired s := by
  by_cases broken : '\n' ∈ s
  · rw [QuotesPaired, Text.lastLine_append_of_mem broken, QuotesPaired]
  · have whole : s.lastLine = s := Text.lastLine_append (s := []) broken
    rw [QuotesPaired, Text.lastLine_append broken, List.count_append, Nat.even_add, QuotesPaired, whole]
    exact ⟨fun both => both.mp h, fun right => iff_of_true h right⟩

theorem IsContents.quotesPaired (h : IsContents x) : QuotesPaired (literal x) := by
  have unbroken : '\n' ∉ literal x := by simp [literal, h.inline]
  have whole : (literal x).lastLine = literal x := Text.lastLine_append (s := []) unbroken
  have none : x.count '"' = 0 := List.count_eq_zero.mpr h.unquoted
  rw [QuotesPaired, whole, literal, List.count_cons, List.count_append, none]
  decide

theorem quotesPaired_plain (h : c ≠ '"') : QuotesPaired [c] := by
  have absent : '"' ∉ Text.lastLine [c] := fun quote =>
    h (List.mem_singleton.mp ((List.rtakeWhile_suffix _ _).subset quote)).symm
  rw [QuotesPaired, List.count_eq_zero.mpr absent]
  exact Even.zero

/-- What stands behind paired quotes is masked as if nothing stood in front of it. -/
theorem maskStrings_append_of_paired (paired : QuotesPaired a) (b : Text) :
    maskStrings (a ++ b) = maskStrings a ++ maskStrings b := by
  induction a using string_induction with
  | nil => rfl
  | quoted x t contents ih =>
      rw [List.append_assoc, maskStrings_quoted contents, ih ((quotesPaired_append contents.quotesPaired).mp paired),
        maskStrings_quoted contents, List.append_assoc]
  | unclosed x t contents stops ih =>
      cases t with
      | nil =>
          -- The quotes of the last line would be paired, and there is one only.
          have unbroken : '\n' ∉ '"' :: (x ++ []) := by simp [contents.inline]
          have whole : Text.lastLine ('"' :: (x ++ [])) = '"' :: (x ++ []) := Text.lastLine_append (s := []) unbroken
          have none : x.count '"' = 0 := List.count_eq_zero.mpr contents.unquoted
          rw [QuotesPaired, whole, List.append_nil, List.count_cons, none] at paired
          exact absurd paired (by decide)
      | cons d t =>
          obtain rfl : d = '\n' := by simpa using stops_cons.mp stops
          have behind : QuotesPaired ('\n' :: t) := by
            rwa [QuotesPaired, ← List.cons_append, Text.lastLine_append_of_mem List.mem_cons_self] at paired
          have longer := maskStrings_unclosed contents (s := '\n' :: t ++ b) stops
          have alone := maskStrings_unclosed contents (s := '\n' :: t) stops
          rw [ih behind] at longer
          rw [alone]
          simpa only [List.cons_append, List.append_assoc] using longer
  | plain c t other ih =>
      rw [List.cons_append, maskStrings_plain other, ih ((quotesPaired_append (quotesPaired_plain other)).mp paired),
        maskStrings_plain other, List.cons_append]

theorem maskStrings_literal (paired : QuotesPaired a) (h : IsContents s) (b : Text) :
    maskStrings (a ++ (literal s ++ b)) =
      maskStrings a ++ (List.replicate (literal s).length ' ' ++ maskStrings b) := by
  rw [maskStrings_append_of_paired paired, maskStrings_quoted h]

theorem stripComments_append_quote (free : ¬ ['-', '-'] <:+: a) (b : Text) :
    stripComments (a ++ '"' :: b) = a ++ '"' :: stripComments b := by
  have quiet : commentPattern.Passes (a ++ ['"']) := passes_commentPattern free (by decide)
  have rest : ∀ before, commentPattern.rewrite (fun _ => []) before b = stripComments b := fun before => by
    rw [Pattern.rewrite_anywhere rfl before none, ← Pattern.replaceAll_eq_rewrite, stripComments]
  have text : ∀ b, a ++ '"' :: b = (a ++ ['"']) ++ b := by simp
  rw [text b, text (stripComments b), stripComments, Pattern.replaceAll_eq_rewrite, quiet.rewrites, rest]

theorem stripComments_literal (free : ¬ ['-', '-'] <:+: a) (free' : ¬ ['-', '-'] <:+: s) (b : Text) :
    stripComments (a ++ (literal s ++ b)) = a ++ (literal s ++ stripComments b) := by
  have text : ∀ b, a ++ (literal s ++ b) = a ++ '"' :: (s ++ '"' :: b) := by simp [literal]
  rw [text, text, stripComments_append_quote free, stripComments_append_quote free']

end Vhdl

end Pinout
