import Pinout.Proofs.Pattern.Passage
import Pinout.Vhdl.Header

/-! # Removing comments from VHDL

A text is read from left to right as comments and plain characters. A comment begins at two dashes in a
row, whatever stands around them, and goes on to the end of its line.
-/

namespace Pinout.Vhdl

open Pattern (Stops stops_cons)

variable {a c s t x : Text} {before : Option Char} {d : Char}

theorem opens_commentPattern (h : d ≠ '-') : commentPattern.opens d = false := by
  simp [commentPattern, Pattern.exactly, Pattern.char, Pattern.opens, Pattern.nullable, h]

theorem quiet_commentPattern (h : ¬ ['-', '-'] <:+: t) (stops : Stops (· == '-') s) :
    commentPattern.Quiet before t s := by
  apply Pattern.quiet_of_forall
  intro y e z split
  exact (Pattern.refuses_exactly (Pattern.not_isPrefix_pair h stops split)).append

theorem passes_commentPattern (free : ¬ ['-', '-'] <:+: x) (differs : d ≠ '-') : commentPattern.Passes (x ++ [d]) :=
  fun _ s => (quiet_commentPattern free (Pattern.stops_cons.mpr (by simpa using differs))).append
    (Pattern.passes_of_closed rfl (x := [d]) (by simpa using opens_commentPattern differs) _ s)

theorem takes_commentPattern (inline : '\n' ∉ x) (stops : Stops (· != '\n') s) :
    commentPattern.Takes before ('-' :: '-' :: x) [] s := by
  have marks : ("--".toList ++ x : Text) = '-' :: '-' :: x := rfl
  rw [← marks]
  exact Pattern.takes_exactly.append (.many (Text.forall_bne inline) stops)

theorem refuses_commentPattern_iff : commentPattern.Refuses before t ↔ ¬ ['-', '-'] <+: t := by
  constructor
  · rintro refuses ⟨s, rfl⟩
    exact Pattern.not_refuses_exactly_many refuses
  · intro front
    exact (Pattern.refuses_exactly front).append

/-- What holds of a text holds of it comment by comment and character by character. -/
theorem comment_induction {motive : Text → Prop} (nil : motive [])
    (line : ∀ x s, '\n' ∉ x → Stops (· != '\n') s → motive s → motive ('-' :: '-' :: (x ++ s)))
    (plain : ∀ d s, ¬ ['-', '-'] <+: d :: s → motive s → motive (d :: s)) (t : Text) : motive t := by
  induction t using Text.shorter_induction with
  | step t shorter =>
      cases t with
      | nil => exact nil
      | cons d s =>
          by_cases front : ['-', '-'] <+: d :: s
          · obtain ⟨u, split⟩ := front
            obtain ⟨x, s, rfl, all, stops⟩ := Pattern.exists_run (· != '\n') u
            rw [← split] at shorter ⊢
            refine line x s (fun hx => ?_) stops (shorter s ?_)
            · simpa using all '\n' hx
            · simp only [List.cons_append, List.length_cons, List.length_append]
              omega
          · exact plain d s front (shorter s (Nat.lt_succ_self _))

theorem stripComments_line (inline : '\n' ∉ x) (stops : Stops (· != '\n') s) :
    stripComments ('-' :: '-' :: (x ++ s)) = stripComments s := by
  have takes : commentPattern.Takes none ('-' :: '-' :: x) [] s := takes_commentPattern inline stops
  exact Pattern.replaceAll_of_takes rfl takes (List.cons_ne_nil _ _)

theorem stripComments_plain (h : ¬ ['-', '-'] <+: d :: s) : stripComments (d :: s) = d :: stripComments s := by
  have refuses : commentPattern.Refuses none (d :: s) := refuses_commentPattern_iff.mpr h
  exact Pattern.replaceAll_of_refuses rfl refuses

theorem stripComments_eq_self (free : ¬ ['-', '-'] <:+: t) : stripComments t = t :=
  Pattern.replaceAll_of_quiet _ (quiet_commentPattern free Pattern.stops_nil)

theorem not_dashes_infix_stripComments (source : Text) : ¬ ['-', '-'] <:+: stripComments source := by
  refine Pattern.not_pair_infix_replaceAll rfl (fun d => ?_) (fun before s => ?_) (fun x hx => ?_) source
  · contrapose
    exact fun differs => by simp [opens_commentPattern differs]
  · exact Pattern.not_refuses_exactly_many
  · exact absurd hx List.not_mem_nil

theorem quiet_stripComments (before : Option Char) (t : Text) : commentPattern.Quiet before (stripComments t) [] :=
  quiet_commentPattern (not_dashes_infix_stripComments t) Pattern.stops_nil

theorem findAll_stripComments (t : Text) : commentPattern.findAll (stripComments t) = [] :=
  Pattern.findAll_eq_nil_of_quiet rfl (quiet_stripComments none t)

theorem stripComments_stripComments (t : Text) : stripComments (stripComments t) = stripComments t :=
  stripComments_eq_self (not_dashes_infix_stripComments t)

/-- A comment behind a text that does not end in a dash is as good as none, also within another comment. -/
theorem stripComments_insert (apart : ∀ e ∈ a.getLast?, e ≠ '-') (inline : '\n' ∉ c) (b : Text) :
    stripComments (a ++ '-' :: '-' :: (c ++ '\n' :: b)) = stripComments (a ++ '\n' :: b) := by
  have ended : Stops (· != '\n') ('\n' :: b) := stops_cons.mpr rfl
  induction a using comment_induction with
  | nil => exact stripComments_line inline ended
  | line x s inside stops ih =>
      have more : stripComments (s ++ '-' :: '-' :: (c ++ '\n' :: b)) = stripComments (s ++ '\n' :: b) :=
        ih fun e he => apart e (by simp [List.getLast?_cons, Option.mem_def.mp he])
      cases s with
      | nil =>
          -- The text in front ends within a comment, which takes in the second one.
          have longer := stripComments_line (x := x ++ '-' :: '-' :: c) (by simp [inside, inline]) ended
          have alone := stripComments_line inside ended
          rw [List.append_nil]
          simpa [alone] using longer
      | cons e s =>
          have behind := stripComments_line inside (s := e :: s ++ '-' :: '-' :: (c ++ '\n' :: b)) stops
          have behind' := stripComments_line inside (s := e :: s ++ '\n' :: b) stops
          simp only [List.cons_append, List.append_assoc] at more behind behind' ⊢
          rw [behind, more, behind']
  | plain d s front ih =>
      have more : stripComments (s ++ '-' :: '-' :: (c ++ '\n' :: b)) = stripComments (s ++ '\n' :: b) :=
        ih fun e he => apart e (by simp [List.getLast?_cons, Option.mem_def.mp he])
      have single : ∀ {v}, (d = '-' → s ≠ []) → ¬ ['-', '-'] <+: d :: (s ++ v) := by
        intro v follows found
        obtain ⟨rfl, second⟩ := List.cons_prefix_cons.mp found
        obtain ⟨e, s, rfl⟩ := List.exists_cons_of_ne_nil (follows rfl)
        obtain ⟨rfl, -⟩ := List.cons_prefix_cons.mp second
        exact front ⟨s, rfl⟩
      have follows : d = '-' → s ≠ [] := by
        rintro rfl rfl
        exact apart '-' rfl rfl
      rw [List.cons_append, List.cons_append, stripComments_plain (single follows), stripComments_plain (single follows),
        more]

end Pinout.Vhdl
