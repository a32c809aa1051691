import Pinout.Proofs.Pattern.Joint
import Pinout.Proofs.Vhdl.Literals
import Pinout.Proofs.Vhdl.Surroundings

/-! # Headers with string literals

With its strings masked, a text has blanks where a literal was. An end clause takes any number of blanks where
it takes one, so neither what the literal holds nor how long it is can move the end of a header.
-/

namespace Pinout.Vhdl

open Pattern (Tolerates InFront Alike)

variable {a b code s u v x y front opening rest : Text} {before : Option Char} {asked : Nat → Bool}
  {kept : List (Nat × Text)}

/-- A further blank behind a blank makes no difference to an end clause in front of it. -/
theorem inFront_entityEndPattern (blank : lastOf none u = some ' ') :
    InFront u v (entityEndPattern.via asked Pattern.ended) := by
  have plain : ((some ' ').any Text.isWord) = false := by decide
  have apart : Pattern.Apart (lastOf none u) v := blank ▸ Pattern.apart_of_front plain
  have outside : (lastOf none u).any Text.isWord = true → False := fun word => by
    rw [blank, plain] at word
    cases word
  have semicolon : Tolerates u v ((Pattern.char ';').via asked Pattern.ended) :=
    .char (by decide) Pattern.inFront_ended fun last => by
      rw [blank] at last
      cases last
  have named : Tolerates u v ((Pattern.optional (.word ++ .blanks) ++ .char ';').via asked Pattern.ended) := by
    rw [Pattern.via_append]
    refine .optional ?_ semicolon
    rw [Pattern.via_append]
    exact .solid Pattern.solid_word apart (semicolon.sweeps.inFront semicolon.inFront semicolon.pastBlank)
      fun _ _ _ _ word => (outside word).elim
  have tail : Tolerates u v (endTail.via asked Pattern.ended) := by
    rw [endTail, Pattern.via_append]
    refine .optional ?_ named
    simp only [Pattern.via_append] at named ⊢
    exact named.keyword apart (Pattern.solid_keyword (by decide) (by decide))
  rw [Pattern.via_congr readings_entityEndPattern]
  simp only [Pattern.via_append]
  exact Pattern.inFront_boundary (tail.keyword apart (Pattern.solid_keyword (by decide) (by decide))).inFront

/-- The text with a run of blanks, at least one, between two parts. -/
def blanked (y : Text) (n : Nat) (v : Text) : Text :=
  y ++ (List.replicate (n + 1) ' ' ++ v)

theorem blanked_append (x q y : Text) (n : Nat) : blanked x n (q ++ y) = blanked x n q ++ y := by
  simp only [blanked, List.append_assoc]

theorem refuses_end_blanked (before : Option Char) (y v : Text) (n : Nat) :
    entityEndPattern.Refuses before (blanked y n v) ↔ entityEndPattern.Refuses before (blanked y 0 v) := by
  induction n with
  | zero => rfl
  | succ n ih =>
      have last : lastOf none (y ++ List.replicate (n + 1) ' ') = some ' ' := by
        rw [List.replicate_succ', ← List.append_assoc, lastOf_append]
        rfl
      have infront : InFront (y ++ List.replicate (n + 1) ' ') v (entityEndPattern.via (fun _ => false) Pattern.ended) :=
        inFront_entityEndPattern last
      have same : entityEndPattern.Refuses before (y ++ List.replicate (n + 1) ' ' ++ ' ' :: v) ↔ _ :=
        infront.refuses_iff (by simp) (List.suffix_refl _)
      have more : y ++ List.replicate (n + 1) ' ' ++ ' ' :: v = blanked y (n + 1) v := by
        rw [blanked, List.replicate_succ' (n := n + 1), List.append_assoc, List.append_assoc]
        rfl
      rw [more, List.append_assoc] at same
      exact same.trans ih

/-- An end clause begins in front of the blanks, or behind them, or nowhere, however many of them there are. -/
theorem end_blanked (before : Option Char) (x v : Text) :
    (∃ q y, x = q ++ y ∧ ∀ n, entityEndPattern.Quiet before q (blanked y n v) ∧
        ¬ entityEndPattern.Refuses (lastOf before q) (blanked y n v)) ∨
      (∃ q y, v = q ++ y ∧ ∀ n, entityEndPattern.Quiet before (blanked x n q) y ∧
        ¬ entityEndPattern.Refuses (lastOf before (blanked x n q)) y) ∨
      ∀ n, entityEndPattern.Quiet before (blanked x n v) [] := by
  induction x generalizing before with
  | nil =>
      have blanks : ∀ n s, entityEndPattern.Quiet before (List.replicate (n + 1) ' ') s := fun n s =>
        entityEndPattern_skipsBlanks.quiet fun c hc => (List.eq_of_mem_replicate hc) ▸ by decide
      have last : ∀ n, lastOf before (List.replicate (n + 1) ' ') = some ' ' := fun n => by
        rw [List.replicate_succ', lastOf_append]
        rfl
      refine .inr ?_
      cases search : entityEndPattern.find? ⟨some ' ', 0, v⟩ with
      | none =>
          refine .inr fun n => (blanks n _).append ?_
          rw [last]
          exact Pattern.quiet_of_find?_eq_none search
      | some found =>
          obtain ⟨q, y, rfl, quiet, ends⟩ := Pattern.exists_quiet_of_find? rfl search
          refine .inl ⟨q, y, rfl, fun n => ⟨(blanks n _).append ?_, ?_⟩⟩
          · rwa [last]
          · rwa [blanked, List.nil_append, lastOf_append, last]
  | cons c x ih =>
      by_cases refuses : entityEndPattern.Refuses before (blanked (c :: x) 0 v)
      · have here : ∀ n, entityEndPattern.Refuses before (c :: blanked x n v) := fun n =>
          (refuses_end_blanked before (c :: x) v n).mpr refuses
        rcases ih (some c) with ⟨q, y, rfl, ends⟩ | ⟨q, y, rfl, ends⟩ | quiet
        · refine .inl ⟨c :: q, y, rfl, fun n => ⟨⟨?_, (ends n).1⟩, (ends n).2⟩⟩
          have first := here n
          rwa [blanked, List.append_assoc] at first
        · exact .inr (.inl ⟨q, y, rfl, fun n => ⟨⟨blanked_append x q y n ▸ here n, (ends n).1⟩, (ends n).2⟩⟩)
        · exact .inr (.inr fun n => ⟨(List.append_nil (blanked x n v)).symm ▸ here n, quiet n⟩)
      · exact .inl ⟨[], c :: x, rfl, fun n => ⟨trivial, mt (refuses_end_blanked before (c :: x) v n).mp refuses⟩⟩

theorem length_maskStrings (t : Text) : (maskStrings t).length = t.length :=
  (forall₂_maskStrings t).length_eq.symm

/-- The first entity of a text opens between `front` and `rest`. -/
structure OpeningAt (code front opening rest : Text) (kept : List (Nat × Text)) : Prop where
  split : code = front ++ (opening ++ rest)
  first : entityPattern.Quiet none front (opening ++ rest)
  opens : entityPattern.Takes (lastOf none front) opening kept rest

theorem exists_openingAt (opens : (entityPattern.search? a).isSome) :
    ∃ front opening rest kept, OpeningAt a front opening rest kept := by
  obtain ⟨found, search⟩ := Option.isSome_iff_exists.mp opens
  obtain ⟨front, rest, split, first, taken, -⟩ := Pattern.exists_of_find? rfl search
  exact ⟨front, found.reading.text, rest, found.reading.kept, split, first, taken⟩

namespace OpeningAt

theorem behind {c : Char} (h : OpeningAt a front opening rest kept) (never : entityPattern.mayRead c = false)
    (plain : Text.isWord c = false) (s : Text) : OpeningAt (a ++ c :: s) front opening (rest ++ c :: s) kept where
  split := by simp only [h.split, List.append_assoc]
  first := by
    rw [← List.append_assoc]
    exact (Pattern.quiet_stop never plain).mpr h.first
  opens := (Pattern.takes_stop never plain).mpr h.opens

theorem literal (h : OpeningAt a front opening rest kept) (s b : Text) :
    OpeningAt (a ++ (literal s ++ b)) front opening (rest ++ (Vhdl.literal s ++ b)) kept :=
  h.behind (by decide +kernel) (by decide) (s ++ ['"'] ++ b)

variable (h : OpeningAt code front opening rest kept)
include h

theorem search?_eq : ∃ found, entityPattern.search? code = some found ∧ found.reading = ⟨opening, kept⟩ ∧
    found.start.position = front.length ∧ found.stop.position = front.length + opening.length := by
  obtain ⟨found, search, reading, start, stop⟩ := Pattern.find?_of_quiet_of_takes h.first h.opens 0
  rw [Nat.zero_add] at start stop
  exact ⟨found, by rw [Pattern.search?, Cursor.start, h.split, search], reading, start, stop⟩

theorem drop_take (n : Nat) :
    (code.take (front.length + opening.length + n)).drop front.length = opening ++ rest.take n := by
  rw [h.split, Nat.add_assoc, List.take_length_add_append, List.drop_left, List.take_length_add_append]

theorem exists_masked : ∃ u z, maskStrings code = u ++ z ∧ u.length = front.length + opening.length ∧
    z.length = rest.length := by
  have whole := length_maskStrings code
  simp only [h.split, List.length_append] at whole
  refine ⟨_, _, (List.take_append_drop (front.length + opening.length) _).symm, ?_, ?_⟩
  · rw [List.length_take, h.split]
    omega
  · rw [List.length_drop, h.split]
    omega

variable (masked : maskStrings code = u ++ v) (length : u.length = front.length + opening.length)
include masked length

theorem headerOf_eq_take (split : v = x ++ y) (quiet : entityEndPattern.Quiet (lastOf none u) x y)
    (ends : ¬ entityEndPattern.Refuses (lastOf none (u ++ x)) y) : headerOf code = opening ++ rest.take x.length := by
  have whole := congrArg List.length masked
  rw [length_maskStrings, h.split, split] at whole
  simp only [List.length_append] at whole
  have parts : rest.take x.length ++ rest.drop x.length = rest := List.take_append_drop _ _
  have there : HeaderAt code front opening (rest.take x.length) (rest.drop x.length) kept := by
    refine ⟨parts.symm ▸ h.split, parts.symm ▸ h.first, parts.symm ▸ h.opens, u, x, y, split ▸ masked, length, ?_,
      quiet, ends⟩
    rw [List.length_take]
    omega
  exact there.headerOf_eq

theorem headerOf_eq_of_quiet (quiet : entityEndPattern.Quiet (lastOf none u) v []) : headerOf code = opening ++ rest := by
  obtain ⟨found, search, -, start, stop⟩ := h.search?_eq
  have none := Pattern.find?_eq_none_of_quiet rfl quiet u.length
  have skipped : (Cursor.start (maskStrings code)).skip found.stop.position = ⟨lastOf Option.none u, u.length, v⟩ := by
    rw [masked, stop, ← length, Cursor.start, Cursor.skip_append, Nat.zero_add]
  simp only [headerOf, search, skipped, none, start]
  rw [h.split, List.drop_left]

omit masked length in
theorem headerOf_eq_of_first (plain : maskStrings code = code) (split : rest = x ++ y)
    (quiet : entityEndPattern.Quiet (lastOf none (front ++ opening)) x y)
    (ends : y = [] ∨ ¬ entityEndPattern.Refuses (lastOf (lastOf none (front ++ opening)) x) y) :
    headerOf code = opening ++ x := by
  have masked : maskStrings code = (front ++ opening) ++ rest := by rw [plain, h.split, List.append_assoc]
  have length : (front ++ opening).length = front.length + opening.length := List.length_append
  rcases ends with rfl | ends
  · rw [List.append_nil] at split
    rw [h.headerOf_eq_of_quiet masked length (split ▸ quiet), split]
  · rw [← lastOf_append] at ends
    rw [h.headerOf_eq_take masked length split quiet ends, split, List.take_left]

end OpeningAt

/-- Where a header ends in a text with a literal between two parts. -/
inductive Ending where
  /-- At an offset of the first part. -/
  | ahead (n : Nat)
  /-- At an offset of the second part. -/
  | behind (n : Nat)
  /-- With the text. -/
  | nowhere

namespace Ending

def Inside (a b : Text) : Ending → Prop
  | ahead n => n ≤ a.length
  | behind n => n ≤ b.length
  | nowhere => True

/-- The offset in the text with `s` in the literal. -/
def offset (a s b : Text) : Ending → Nat
  | ahead n => n
  | behind n => (a ++ literal s).length + n
  | nowhere => (a ++ (literal s ++ b)).length

end Ending

/-- Where the header ends around a literal does not depend on what the literal holds. -/
theorem OpeningAt.exists_ending (there : OpeningAt a front opening rest kept) (paired : QuotesPaired a) (b : Text) :
    ∃ ending : Ending, ending.Inside a b ∧ ∀ s, IsContents s →
      headerOf (a ++ (Vhdl.literal s ++ b)) =
        ((a ++ (Vhdl.literal s ++ b)).take (ending.offset a s b)).drop front.length := by
  obtain ⟨u, z, maskedFront, length, same⟩ := there.exists_masked
  have whole : a.length = u.length + rest.length := by
    rw [there.split, List.length_append, List.length_append, length, Nat.add_assoc]
  have masked : ∀ s, IsContents s →
      maskStrings (a ++ (Vhdl.literal s ++ b)) = u ++ blanked z (s.length + 1) (maskStrings b) := fun s contents => by
    rw [maskStrings_literal paired contents, maskedFront, blanked, List.append_assoc]
    simp [Vhdl.literal]
  rcases end_blanked (lastOf none u) z (maskStrings b) with ⟨q, y, split, ends⟩ | ⟨q, y, split, ends⟩ | nowhere
  · refine ⟨.ahead (u.length + q.length), ?_, fun s contents => ?_⟩
    · rw [split, List.length_append] at same
      change _ ≤ a.length
      omega
    · have text : blanked z (s.length + 1) (maskStrings b) = q ++ blanked y (s.length + 1) (maskStrings b) := by
        rw [split, blanked, List.append_assoc]
        rfl
      obtain ⟨quiet, ending⟩ := ends (s.length + 1)
      rw [← lastOf_append] at ending
      rw [(there.literal s b).headerOf_eq_take (masked s contents) length text quiet ending, Ending.offset, length,
        (there.literal s b).drop_take]
  · refine ⟨.behind q.length, ?_, fun s contents => ?_⟩
    · have inside := congrArg List.length split
      rw [length_maskStrings, List.length_append] at inside
      change _ ≤ b.length
      omega
    · have text : blanked z (s.length + 1) (maskStrings b) = blanked z (s.length + 1) q ++ y := by
        rw [split, blanked_append]
      -- The literal is as long as the blanks it is masked with, so that the header holds it whole.
      have long : (a ++ Vhdl.literal s).length + q.length =
          front.length + opening.length + (blanked z (s.length + 1) q).length := by
        simp only [blanked, Vhdl.literal, List.length_append, List.length_replicate, List.length_cons, List.length_nil]
        omega
      obtain ⟨quiet, ending⟩ := ends (s.length + 1)
      rw [← lastOf_append] at ending
      rw [(there.literal s b).headerOf_eq_take (masked s contents) length text quiet ending, Ending.offset, long,
        (there.literal s b).drop_take]
  · refine ⟨.nowhere, trivial, fun s contents => ?_⟩
    rw [(there.literal s b).headerOf_eq_of_quiet (masked s contents) length (nowhere _), Ending.offset,
      List.take_length, (there.literal s b).split, List.drop_left]

theorem OpeningAt.headerOf_literal (there : OpeningAt a front opening rest kept) (paired : QuotesPaired a) (b : Text) :
    (∃ body, ∀ s, IsContents s → headerOf (a ++ (Vhdl.literal s ++ b)) = body) ∨
      ∃ body, body <+: b ∧
        ∀ s, IsContents s → headerOf (a ++ (Vhdl.literal s ++ b)) = opening ++ rest ++ (Vhdl.literal s ++ body) := by
  obtain ⟨ending, inside, ends⟩ := there.exists_ending paired b
  have split := there.split
  generalize opening ++ rest = tail at split ⊢
  subst split
  cases ending with
  | ahead n =>
      refine .inl ⟨tail.take (n - front.length), fun s contents => ?_⟩
      rw [ends s contents, Ending.offset, List.take_append_of_le_length inside, List.drop_take, List.drop_left]
  | behind n =>
      refine .inr ⟨b.take n, List.take_prefix _ _, fun s contents => ?_⟩
      rw [ends s contents, Ending.offset, ← List.append_assoc, List.take_length_add_append]
      simp only [List.append_assoc, List.drop_left]
  | nowhere =>
      refine .inr ⟨b, List.prefix_refl b, fun s contents => ?_⟩
      rw [ends s contents, Ending.offset, List.take_length, List.append_assoc, List.drop_left]

theorem OpeningAt.headerOf_eq (there : OpeningAt a front opening rest kept) (unended : ¬ HoldsEntity a) :
    headerOf a = opening ++ rest := by
  obtain ⟨found, search, -, start, -⟩ := there.search?_eq
  have none : entityEndPattern.find? ((Cursor.start (maskStrings a)).skip found.stop.position) = none := by
    by_contra ended
    obtain ⟨ending, some⟩ := Option.ne_none_iff_exists'.mp ended
    exact unended ⟨found, Pattern.mem_findAll_of_search? search, ending, some⟩
  simp only [headerOf, search, none, start]
  rw [there.split, List.drop_left]

theorem header_append_quote (free : ¬ ['-', '-'] <:+: a) (paired : QuotesPaired a) (holds : HoldsEntity a) (t : Text) :
    header (a ++ '"' :: t) = header a := by
  obtain ⟨front, opening, body, rest, kept, there⟩ := exists_headerAt holds
  have behind := there.surround (.inl rfl) (maskStrings_append_of_paired paired ('"' :: stripComments t))
    (fun _ => trivial)
  rw [header, header, stripComments_append_quote free, stripComments_eq_self free, there.headerOf_eq]
  exact behind.headerOf_eq

/-- The header begins at the entity, and what a literal behind it holds does not move its end. -/
theorem header_end_literal (opens : (entityPattern.search? a).isSome) (paired : QuotesPaired a) (b : Text) :
    ∃ start, ∃ ending : Ending, ending.Inside a b ∧
      ∀ s, IsContents s → ¬ ['-', '-'] <:+: a ++ (literal s ++ b) →
        (entityPattern.search? (a ++ (literal s ++ b))).map (·.start.position) = some start ∧
          header (a ++ (literal s ++ b)) = ((a ++ (literal s ++ b)).take (ending.offset a s b)).drop start := by
  obtain ⟨front, opening, rest, kept, there⟩ := exists_openingAt opens
  obtain ⟨ending, inside, ends⟩ := there.exists_ending paired b
  refine ⟨front.length, ending, inside, fun s contents free => ⟨?_, ?_⟩⟩
  · obtain ⟨found, search, -, start, -⟩ := (there.literal s b).search?_eq
    rw [search, Option.map_some, start]
  · rw [header, stripComments_eq_self free, ends s contents]

def taggedFront : Text := "entity e is generic ( tag : string := "

def taggedRest : Text := " ); port ( p : in bit ); end entity ; end ;"

/-- A literal that spells an end clause, and an empty one. -/
theorem header_end_literal_tagged :
    ∃ start, ∃ ending : Ending, ending.Inside taggedFront taggedRest ∧
      header (taggedFront ++ (literal "end ;" ++ taggedRest)) =
        ((taggedFront ++ (literal "end ;" ++ taggedRest)).take
          (ending.offset taggedFront "end ;" taggedRest)).drop start ∧
      header (taggedFront ++ (literal "" ++ taggedRest)) =
        ((taggedFront ++ (literal "" ++ taggedRest)).take (ending.offset taggedFront "" taggedRest)).drop start := by
  have opens : (entityPattern.search? taggedFront).isSome := by decide +kernel
  have paired : QuotesPaired taggedFront := by decide
  obtain ⟨start, ending, inside, ends⟩ := header_end_literal opens paired taggedRest
  exact ⟨start, ending, inside, (ends "end ;" (by decide) (by decide +kernel)).2,
    (ends "" (by decide) (by decide +kernel)).2⟩

end Pinout.Vhdl
