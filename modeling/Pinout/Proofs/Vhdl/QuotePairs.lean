import Pinout.Proofs.Vhdl.MaskedHeader

/-! # Pairs of quotes

On each line the quotes are numbered from the left, and every odd one makes a pair with the next one. These pairs are
the literals that masking finds, so it blanks out the pairs and what stands between them and leaves everything else,
and a last quote without a partner, in place.
-/

namespace Pinout.Vhdl

open Pattern (Stops stops_cons)

variable {a s t x : Text} {i k n p q : Nat}

/-- How many quotes stand in front of an offset on its line. -/
def quotesBefore (t : Text) (i : Nat) : Nat :=
  (Text.lastLine (t.take i)).count '"'

/-- At the offset stands the quote with the number `n` of its line, counted from one. -/
def IsQuote (t : Text) (n i : Nat) : Prop :=
  t[i]? = some '"' ∧ quotesBefore t i + 1 = n

instance (t : Text) (n i : Nat) : Decidable (IsQuote t n i) :=
  inferInstanceAs (Decidable (_ ∧ _))

/-- The quotes with the numbers `2k - 1` and `2k` of one line stand at `p` and at `q`. -/
structure IsPair (t : Text) (k p q : Nat) : Prop where
  opening : IsQuote t (2 * k - 1) p
  closing : IsQuote t (2 * k) q
  forward : p ≤ q
  inline : '\n' ∉ (t.take q).drop p

instance (t : Text) (k p q : Nat) : Decidable (IsPair t k p q) :=
  decidable_of_iff (IsQuote t (2 * k - 1) p ∧ IsQuote t (2 * k) q ∧ p ≤ q ∧ '\n' ∉ (t.take q).drop p)
    ⟨fun ⟨opening, closing, forward, inline⟩ => ⟨opening, closing, forward, inline⟩,
      fun h => ⟨h.opening, h.closing, h.forward, h.inline⟩⟩

/-- At the offset stands one of the two quotes of a pair or something between them. -/
def InPair (t : Text) (i : Nat) : Prop :=
  ∃ k p q, IsPair t k p q ∧ p ≤ i ∧ i ≤ q

instance (t : Text) (i : Nat) : Decidable (InPair t i) :=
  -- Which pair it is, is told by the number of its second quote.
  decidable_of_iff (∃ q < t.length, i ≤ q ∧ ∃ p < i + 1, IsPair t ((quotesBefore t q + 1) / 2) p q) <| by
    constructor
    · rintro ⟨q, -, before, p, behind, pair⟩
      exact ⟨_, p, q, pair, Nat.le_of_lt_succ behind, before⟩
    · rintro ⟨k, p, q, pair, behind, before⟩
      have half : (quotesBefore t q + 1) / 2 = k := by
        rw [pair.closing.2]
        omega
      have there : q < t.length := (List.getElem?_eq_some_iff.mp pair.closing.1).1
      exact ⟨q, there, before, p, Nat.lt_succ_of_le behind, half ▸ pair⟩

theorem isQuote_iff : IsQuote t n i ↔ ∃ a b, t = a ++ '"' :: b ∧ a.length = i ∧ (Text.lastLine a).count '"' + 1 = n := by
  constructor
  · rintro ⟨there, number⟩
    obtain ⟨inside, quote⟩ := List.getElem?_eq_some_iff.mp there
    refine ⟨t.take i, t.drop (i + 1), ?_, List.length_take_of_le (Nat.le_of_lt inside), number⟩
    rw [← quote, ← List.drop_eq_getElem_cons inside, List.take_append_drop]
  · rintro ⟨a, b, rfl, rfl, number⟩
    exact ⟨by simp, by rwa [quotesBefore, List.take_left]⟩

theorem isQuote_append (inside : i < t.length) (s : Text) : IsQuote (t ++ s) n i ↔ IsQuote t n i := by
  rw [IsQuote, quotesBefore, List.getElem?_append_left inside, List.take_append_of_le_length (Nat.le_of_lt inside),
    IsQuote, quotesBefore]

theorem count_lastLine_quote (inline : '\n' ∉ x) (a : Text) :
    (Text.lastLine (a ++ '"' :: x)).count '"' = (Text.lastLine a).count '"' + (x.count '"' + 1) := by
  have unbroken : '\n' ∉ '"' :: x := by simp [inline]
  rw [Text.lastLine_append unbroken, List.count_append, List.count_cons_self]

/-- A pair of quotes makes a literal, and the quotes in front of it on its line are paired. -/
theorem IsPair.exists_literal (h : IsPair t k p q) :
    ∃ a x b, t = a ++ (literal x ++ b) ∧ QuotesPaired a ∧ IsContents x ∧ p = a.length ∧ q = p + (x.length + 1) := by
  obtain ⟨opening, closing, forward, inline⟩ := h
  have apart : p ≠ q := by
    rintro rfl
    have odd := opening.2
    have even := closing.2
    omega
  obtain ⟨u, b, rfl, rfl, even⟩ := isQuote_iff.mp closing
  have inside : p < u.length := Nat.lt_of_le_of_ne forward apart
  obtain ⟨a, x, rfl, rfl, odd⟩ := isQuote_iff.mp ((isQuote_append inside _).mp opening)
  rw [List.take_left, List.drop_left] at inline
  have unbroken : '\n' ∉ x := fun feed => inline (List.mem_cons_of_mem _ feed)
  rw [count_lastLine_quote unbroken] at even
  -- The numbers differ by one, so there is no quote in between.
  have none : x.count '"' = 0 := by omega
  exact ⟨a, x, b, by simp [literal], ⟨k - 1, by omega⟩, ⟨List.count_eq_zero.mp none, unbroken⟩, rfl, by simp⟩

theorem exists_isPair (paired : QuotesPaired a) (contents : IsContents x) (b : Text) :
    ∃ k, IsPair (a ++ (literal x ++ b)) k a.length (a.length + (x.length + 1)) := by
  obtain ⟨m, even⟩ := paired
  have none : x.count '"' = 0 := List.count_eq_zero.mpr contents.unquoted
  have length : a.length + (x.length + 1) = (a ++ '"' :: x).length := by simp
  have text : a ++ (literal x ++ b) = (a ++ '"' :: x) ++ '"' :: b := by simp [literal]
  refine ⟨m + 1, isQuote_iff.mpr ⟨a, x ++ '"' :: b, by simp [literal], rfl, by omega⟩,
    isQuote_iff.mpr ⟨a ++ '"' :: x, b, text, length.symm, ?_⟩, Nat.le_add_right _ _, ?_⟩
  · rw [count_lastLine_quote contents.inline]
    omega
  · rw [length, text, List.take_left, List.drop_left]
    simp [contents.inline]

/-- The offset lies in a literal that stands behind paired quotes. -/
def InLiteral (t : Text) (i : Nat) : Prop :=
  ∃ a x b j, t = a ++ (literal x ++ b) ∧ QuotesPaired a ∧ IsContents x ∧ j < (literal x).length ∧ i = a.length + j

theorem inPair_iff_inLiteral : InPair t i ↔ InLiteral t i := by
  constructor
  · rintro ⟨k, p, q, pair, behind, before⟩
    obtain ⟨a, x, b, rfl, paired, contents, rfl, rfl⟩ := pair.exists_literal
    obtain ⟨j, rfl⟩ := Nat.exists_eq_add_of_le behind
    refine ⟨a, x, b, j, rfl, paired, contents, ?_, rfl⟩
    rw [length_literal]
    omega
  · rintro ⟨a, x, b, j, rfl, paired, contents, inside, rfl⟩
    obtain ⟨k, pair⟩ := exists_isPair paired contents b
    rw [length_literal] at inside
    exact ⟨k, _, _, pair, Nat.le_add_right _ _, by omega⟩

theorem InLiteral.getElem?_maskStrings (h : InLiteral t i) : (maskStrings t)[i]? = some ' ' := by
  obtain ⟨a, x, b, j, rfl, paired, contents, inside, rfl⟩ := h
  have behind : (maskStrings a).length ≤ a.length + j := by
    rw [length_maskStrings]
    exact Nat.le_add_right _ _
  rw [maskStrings_literal paired contents, List.getElem?_append_right behind, length_maskStrings, Nat.add_sub_cancel_left,
    List.getElem?_append_left (by rwa [List.length_replicate]), List.getElem?_replicate_of_lt inside]

theorem InLiteral.not_lineFeed (h : InLiteral t i) : t[i]? ≠ some '\n' := by
  obtain ⟨a, x, b, j, rfl, -, contents, inside, rfl⟩ := h
  rw [List.getElem?_append_right (Nat.le_add_right _ _), Nat.add_sub_cancel_left, List.getElem?_append_left inside]
  intro feed
  have held := List.mem_of_getElem? feed
  simp [literal, contents.inline] at held

theorem InLiteral.append_left (h : InLiteral s i) (paired : QuotesPaired a) : InLiteral (a ++ s) (a.length + i) := by
  obtain ⟨u, x, b, j, rfl, pairedBehind, contents, inside, rfl⟩ := h
  exact ⟨a ++ u, x, b, j, by rw [List.append_assoc], (quotesPaired_append paired).mpr pairedBehind, contents, inside,
    by rw [List.length_append, Nat.add_assoc]⟩

/-- An open quote in front does not reach a literal behind the end of its line. -/
theorem InLiteral.append_line (h : InLiteral s i) (stops : Stops (· != '\n') s) (a : Text) :
    InLiteral (a ++ s) (a.length + i) := by
  obtain ⟨u, x, b, j, rfl, paired, contents, inside, rfl⟩ := h
  have ended : '\n' ∈ u := by
    cases u with
    | nil => cases stops_cons.mp stops
    | cons d u =>
        obtain rfl : d = '\n' := by simpa using stops_cons.mp stops
        exact List.mem_cons_self
  have pairedBehind : QuotesPaired (a ++ u) := by rwa [QuotesPaired, Text.lastLine_append_of_mem ended]
  exact ⟨a ++ u, x, b, j, by rw [List.append_assoc], pairedBehind, contents, inside,
    by rw [List.length_append, Nat.add_assoc]⟩

theorem getElem?_maskStrings_or_inLiteral (t : Text) (i : Nat) : (maskStrings t)[i]? = t[i]? ∨ InLiteral t i := by
  induction t using string_induction generalizing i with
  | nil => exact .inl rfl
  | quoted x s contents ih =>
      rcases Nat.lt_or_ge i (literal x).length with inside | behind
      · exact .inr ⟨[], x, s, i, rfl, by decide, contents, inside, (Nat.zero_add i).symm⟩
      · obtain ⟨j, rfl⟩ := Nat.exists_eq_add_of_le behind
        refine (ih j).imp (fun same => ?_) fun h => h.append_left contents.quotesPaired
        rw [maskStrings_quoted contents, List.getElem?_append_right (by simp), List.getElem?_append_right (by simp)]
        simpa using same
  | unclosed x s contents stops ih =>
      rw [maskStrings_unclosed contents stops, ← List.cons_append, ← List.cons_append]
      rcases Nat.lt_or_ge i ('"' :: x).length with inside | behind
      · rw [List.getElem?_append_left inside, List.getElem?_append_left inside]
        exact .inl rfl
      · obtain ⟨j, rfl⟩ := Nat.exists_eq_add_of_le behind
        refine (ih j).imp (fun same => ?_) fun h => h.append_line stops ('"' :: x)
        rw [List.getElem?_append_right behind, List.getElem?_append_right behind, Nat.add_sub_cancel_left, same]
  | plain c s other ih =>
      rw [maskStrings_plain other]
      cases i with
      | zero => exact .inl rfl
      | succ i =>
          refine (ih i).imp id fun h => ?_
          rw [Nat.add_comm]
          exact h.append_left (quotesPaired_plain other)

theorem not_literal_infix_maskStrings (t : Text) : ∀ x, IsContents x → ¬ literal x <:+: maskStrings t := by
  induction t using string_induction with
  | nil =>
      intro x _ found
      cases List.infix_nil.mp found
  | quoted y s contents ih =>
      intro x contents' found
      have blanks : '"' ∉ List.replicate (literal y).length ' ' := by simp [List.mem_replicate]
      rw [maskStrings_quoted contents] at found
      obtain ⟨z, inside, behind⟩ := exists_literal_infix (u := []) blanks contents' found
      exact ih z inside behind
  | unclosed y s contents stops ih =>
      intro x contents' found
      rw [maskStrings_unclosed contents stops] at found
      obtain ⟨z, inside, behind⟩ := exists_literal_infix (u := ['"']) contents.unquoted contents' found
      refine (List.infix_cons_iff.mp behind).elim (fun opened => ?_) (ih z inside)
      -- The line of the open quote ends, and a literal does not go on behind it.
      obtain ⟨-, opened⟩ := List.cons_prefix_cons.mp opened
      cases s with
      | nil => exact absurd (List.prefix_nil.mp opened) (by simp)
      | cons d s =>
          obtain rfl : d = '\n' := by simpa using stops_cons.mp stops
          rw [maskStrings_plain (by decide)] at opened
          cases z with
          | nil => cases (List.cons_prefix_cons.mp opened).1
          | cons e z => exact inside.inline (by simp [(List.cons_prefix_cons.mp opened).1])
  | plain c s other ih =>
      intro x contents found
      have plain : '"' ∉ [c] := by simpa using other.symm
      rw [maskStrings_plain other] at found
      obtain ⟨z, inside, behind⟩ := exists_literal_infix (u := []) plain contents found
      exact ih z inside behind

theorem exists_literal_of_count (inline : '\n' ∉ t) (two : 1 < t.count '"') : ∃ x, IsContents x ∧ literal x <:+: t := by
  have first : '"' ∈ t := List.count_pos_iff.mp (by omega)
  obtain ⟨a, s, rfl, absent⟩ := List.eq_append_cons_of_mem first
  rw [List.count_append, List.count_eq_zero.mpr absent, List.count_cons_self] at two
  have second : '"' ∈ s := List.count_pos_iff.mp (by omega)
  obtain ⟨x, b, rfl, unquoted⟩ := List.eq_append_cons_of_mem second
  exact ⟨x, ⟨unquoted, fun feed => inline (by simp [feed])⟩, a, b, by simp [literal]⟩

theorem maskStrings_eq_mapIdx (t : Text) : maskStrings t = t.mapIdx fun i c => if InPair t i then ' ' else c := by
  refine List.ext_getElem? fun i => ?_
  rw [List.getElem?_mapIdx]
  by_cases pair : InPair t i
  · have masked := (inPair_iff_inLiteral.mp pair).getElem?_maskStrings
    have inside : i < t.length := by
      rw [← length_maskStrings]
      exact (List.getElem?_eq_some_iff.mp masked).1
    rw [masked, List.getElem?_eq_getElem inside, Option.map_some, if_pos pair]
  · have kept := (getElem?_maskStrings_or_inLiteral t i).resolve_right (mt inPair_iff_inLiteral.mpr pair)
    simp only [kept, pair, if_false, Option.map_id_fun', id]

example : maskStrings "\"a\"b\"\"c\"d\n\"e\"".toList = "   b  c\"d\n   ".toList := by
  decide +kernel

theorem lineFeed_maskStrings_iff (t : Text) (i : Nat) : (maskStrings t)[i]? = some '\n' ↔ t[i]? = some '\n' := by
  rcases getElem?_maskStrings_or_inLiteral t i with same | h
  · rw [same]
  · rw [h.getElem?_maskStrings]
    exact iff_of_false (by decide) h.not_lineFeed

theorem count_le_one_of_mem_splitOn (t : Text) : ∀ line ∈ (maskStrings t).splitOn '\n', line.count '"' ≤ 1 := by
  intro line hline
  by_contra two
  obtain ⟨x, contents, found⟩ := exists_literal_of_count (Text.not_mem_of_mem_splitOn hline) (Nat.lt_of_not_le two)
  exact not_literal_infix_maskStrings t x contents (found.trans (Text.infix_of_mem_splitOn hline))

theorem maskStrings_maskStrings (t : Text) : maskStrings (maskStrings t) = maskStrings t := by
  have none := (search?_stringPattern_eq_none_iff _).mpr (not_literal_infix_maskStrings t)
  exact Pattern.replaceAll_of_quiet _ (Pattern.quiet_of_find?_eq_none none)

/-- Masking blanks out the pairs of quotes of each line with what stands between them and leaves everything else in its
place. So at most one quote is left on a line, and masking once more changes nothing. -/
theorem maskStrings_pairs (t : Text) :
    (maskStrings t).length = t.length ∧
      (maskStrings t = t.mapIdx fun i c => if InPair t i then ' ' else c) ∧
        (∀ i : Nat, (maskStrings t)[i]? = some '\n' ↔ t[i]? = some '\n') ∧
          (∀ line ∈ (maskStrings t).splitOn '\n', line.count '"' ≤ 1) ∧
            maskStrings (maskStrings t) = maskStrings t :=
  ⟨length_maskStrings t, maskStrings_eq_mapIdx t, lineFeed_maskStrings_iff t,
    count_le_one_of_mem_splitOn t, maskStrings_maskStrings t⟩

end Pinout.Vhdl
