import Pinout.Proofs.Vhdl.LiteralGenerics

/-! # Ranges of generics around a string literal

A bound of a range goes on across a literal that holds neither a blank nor a parenthesis. So with another such literal
in its place the same range is read, up to the literal itself.
-/

namespace Pinout.Vhdl

open Pattern (ReadsAlike Stops stops_cons)

variable {before : Option Char} {r s s' t v w x : Text} {R : Reading → Reading → Prop}
  {kept : Text → List (Nat × Text)}

/-- What is kept of a range with a literal in one of its bounds. -/
inductive KeepsLiteral : (Text → List (Nat × Text)) → Prop
  | first (x w order low : Text) : KeepsLiteral fun s => [(5, low), (4, order), (3, x ++ (literal s ++ w))]
  | second (high order x w : Text) : KeepsLiteral fun s => [(5, x ++ (literal s ++ w)), (4, order), (3, high)]

theorem exists_of_append_literal (plain : ∀ c ∈ literal s, inBound c = true) (stops : Stops inBound t)
    (split : v ++ (literal s ++ r) = x ++ t) :
    (∃ w, x = v ++ (literal s ++ w) ∧ r = w ++ t) ∨ ∃ m, v = x ++ m ∧ t = m ++ (literal s ++ r) := by
  rcases List.append_eq_append_iff.mp split with ⟨m, rfl, rest⟩ | found
  · obtain ⟨w, rfl⟩ := Pattern.front_of_stops (rest ▸ List.prefix_append (literal s) r) plain stops
    rw [List.append_assoc] at rest
    exact .inl ⟨w, rfl, List.append_cancel_left rest⟩
  · exact .inr found

theorem not_mem_of_blank (blank : ∀ c ∈ x, Text.isBlank c = true) : '"' ∉ x := fun quote =>
  absurd (blank _ quote) (by decide)

theorem append_literal_of_not_mem (absent : '"' ∉ x) (split : v ++ (literal s ++ r) = x ++ t) :
    ∃ m, v = x ++ m ∧ t = m ++ (literal s ++ r) := by
  rw [literal, List.cons_append] at split ⊢
  exact Text.append_cons_of_not_mem absent split

theorem bound_exchange (h : ∀ c ∈ x ++ (literal s ++ w), inBound c = true) (plain : ∀ c ∈ literal s', inBound c = true) :
    x ++ (literal s' ++ w) ≠ [] ∧ ∀ c ∈ x ++ (literal s' ++ w), inBound c = true := by
  obtain ⟨front, behind⟩ := List.forall_mem_append.mp h
  refine ⟨by simp [literal], List.forall_mem_append.mpr ⟨front, List.forall_mem_append.mpr ⟨plain, ?_⟩⟩⟩
  exact (List.forall_mem_append.mp behind).2

/-- A range that goes on across a literal is read with another one in its place. -/
theorem SpacedBounds.exchange (b : SpacedBounds) (plain : ∀ c ∈ literal s, inBound c = true) (opened : ')' ∉ v)
    (split : v ++ (literal s ++ r) = b.text ++ t) :
    ∃ w kept, r = w ++ t ∧ KeepsLiteral kept ∧ ∀ s', (∀ c ∈ literal s', inBound c = true) →
      ∃ b' : SpacedBounds, b'.text = v ++ (literal s' ++ w) ∧ b'.kept = kept s' := by
  obtain ⟨margin, inner, first, gap, order, gap', second, tail, blanks, gaps, bounds, spells⟩ := b
  have visible : ∀ x ∈ [margin, inner, gap, gap', tail], '"' ∉ x := fun x hx => not_mem_of_blank (blanks x hx)
  have order_visible : '"' ∉ order := fun quote => absurd (isWord_of_order spells _ quote) (by decide)
  have front : v ++ (literal s ++ r) = (margin ++ '(' :: inner) ++ (first ++ (gap ++ (order ++ (gap' ++ (second ++
      (tail ++ ')' :: t)))))) := by simpa [text] using split
  obtain ⟨m, rfl, high⟩ := append_literal_of_not_mem (by simp [visible margin, visible inner]) front
  rcases exists_of_append_literal plain (stops_inBound_of_blank gaps.1 (blanks gap (by simp))) high.symm with
    ⟨w, rfl, rfl⟩ | ⟨n, rfl, behind⟩
  · refine ⟨w ++ (gap ++ (order ++ (gap' ++ (second ++ (tail ++ [')']))))), _, by simp, .first m w order second,
      fun s' plain' => ?_⟩
    have bound := bound_exchange (bounds (m ++ (literal s ++ w)) (by simp)).2 plain'
    exact ⟨⟨margin, inner, m ++ (literal s' ++ w), gap, order, gap', second, tail, blanks, gaps,
      List.forall_mem_cons.mpr ⟨bound, List.forall_mem_singleton.mpr (bounds second (by simp))⟩, spells⟩, by simp [text], rfl⟩
  have middle : n ++ (literal s ++ r) = (gap ++ (order ++ gap')) ++ (second ++ (tail ++ ')' :: t)) := by
    simpa using behind.symm
  obtain ⟨k, rfl, low⟩ := append_literal_of_not_mem
    (by simp [visible gap, visible gap', order_visible]) middle
  rcases exists_of_append_literal plain (stops_inBound_closing (blanks tail (by simp)) t) low.symm with
    ⟨w, rfl, rfl⟩ | ⟨l, rfl, closing⟩
  · refine ⟨w ++ (tail ++ [')']), _, by simp, .second first order k w, fun s' plain' => ?_⟩
    have bound := bound_exchange (bounds (k ++ (literal s ++ w)) (by simp)).2 plain'
    exact ⟨⟨margin, inner, first, gap, order, gap', k ++ (literal s' ++ w), tail, blanks, gaps,
      List.forall_mem_cons.mpr ⟨bounds first (by simp), List.forall_mem_singleton.mpr bound⟩, spells⟩, by simp [text], rfl⟩
  · obtain ⟨l, rfl, ends⟩ := append_literal_of_not_mem (visible tail (by simp)) closing.symm
    cases l with
    | nil => exact absurd (List.cons.inj ends).1 (by decide)
    | cons c l =>
        obtain ⟨rfl, -⟩ := List.cons.inj ends
        exact absurd (by simp) opened

theorem takes_boundsPart_exchange {a : Reading} (plain : ∀ c ∈ literal s, inBound c = true) (opened : ')' ∉ v)
    (h : a ∈ boundsPart.readings before (v ++ (literal s ++ r))) :
    ∃ w t kept, r = w ++ t ∧ KeepsLiteral kept ∧ ∀ s', (∀ c ∈ literal s', inBound c = true) →
      boundsPart.Takes before (v ++ (literal s' ++ w)) (kept s') t := by
  obtain ⟨t, split⟩ := Pattern.front_of_mem h
  obtain ⟨b, rfl⟩ := exists_of_mem_boundsPart h
  obtain ⟨w, kept, rest, keeps, exchange⟩ := b.exchange plain opened split.symm
  refine ⟨w, t, kept, rest, keeps, fun s' plain' => ?_⟩
  obtain ⟨b', text, shown⟩ := exchange s' plain'
  rw [← text, ← shown]
  exact b'.takes

theorem readsAlike_boundsPart (plain : ∀ c ∈ literal s, inBound c = true) (plain' : ∀ c ∈ literal s', inBound c = true)
    (related : ∀ text text' kept, KeepsLiteral kept → R ⟨text, kept s⟩ ⟨text', kept s'⟩) :
    ReadsAlike R boundsPart (literal s) (literal s') r before v := by
  by_cases closes : ')' ∈ v
  · have ends : boundsPart.EndsAt ')' := Pattern.endsAt_append_char (by decide)
    exact (ends.settled closes).readsAlike
  by_cases refuses : boundsPart.Refuses before (v ++ (literal s ++ r))
  · refine .nothing refuses (Pattern.refuses_iff.mpr fun a read => ?_)
    obtain ⟨w, t, kept, rfl, -, takes⟩ := takes_boundsPart_exchange plain' closes read
    exact (takes s plain).not_refuses (by simpa only [List.append_assoc] using refuses)
  · obtain ⟨x, kept, t, split, first⟩ := Pattern.exists_takes refuses
    obtain ⟨w, t, kept, rfl, keeps, takes⟩ := takes_boundsPart_exchange plain closes (split ▸ first.mem)
    exact .across rfl (takes s plain) (takes s' plain') (related _ _ kept keeps)

theorem readsAlike_defaultPart (endless : ';' ∉ s) (endless' : ';' ∉ s')
    (related : ∀ text text' d d', R ⟨text, [(6, d)]⟩ ⟨text', [(6, d')]⟩) :
    ReadsAlike R defaultPart (literal s) (literal s') r before v := by
  rcases settled_defaultPart before v with settled | ⟨g, h, e, rfl, blank, blank', visible, open'⟩
  · exact settled.readsAlike
  · obtain ⟨n, t, rfl, run, stops⟩ := Pattern.exists_run (· != ';') r
    have taken : ∀ {s}, ';' ∉ s → defaultPart.Takes before (g ++ (":=".toList ++ (h ++ e)) ++ (literal s ++ n))
        [(6, e ++ '"' :: (s ++ '"' :: n))] t := fun {s} endless => by
      have absent : ';' ∉ s ++ '"' :: n := by
        have inside : ';' ∉ n := fun mem => by simpa using run _ mem
        simp [endless, inside]
      have whole : defaultPart.Takes before _ _ t := takes_defaultPart_quote blank blank' visible open' absent stops
      simpa [literal] using whole
    exact .across rfl (taken endless) (taken endless') (related _ _ _ _)

/-- Two generics that differ at most in a literal that the range of either holds. -/
def GenericAlike (s s' : Text) (g g' : Generic) : Prop :=
  ∃ width, g' = { g with width } ∧ WidthAlike s s' g.width width

theorem GenericAlike.refl (g : Generic) : GenericAlike s s' g g :=
  ⟨g.width, rfl, .same _⟩

/-- A range with a literal in it shows the literal. -/
theorem alike_genericRead (keeps : KeepsLiteral kept) (text text' : Text) (head : List (Nat × Text)) :
    GenericAlike s s' (signature (genericRead ⟨text, kept s ++ head⟩)) (signature (genericRead ⟨text', kept s' ++ head⟩)) := by
  refine ⟨(genericRead ⟨text', kept s' ++ head⟩).width, by cases keeps <;> rfl, ?_⟩
  cases keeps with
  | first x w order low =>
      have width : ∀ s text, (genericRead ⟨text, [(5, low), (4, order), (3, x ++ (literal s ++ w))] ++ head⟩).width =
          some (x ++ (literal s ++ (w ++ " " ++ Text.toLower order ++ " " ++ low))) := fun s text => by
        have read : (genericRead ⟨text, [(5, low), (4, order), (3, x ++ (literal s ++ w))] ++ head⟩).width =
          some (x ++ (literal s ++ w) ++ " " ++ Text.toLower order ++ " " ++ low) := rfl
        rw [read]
        simp only [List.append_assoc]
      exact width s text ▸ width s' text' ▸ .literal x _
  | second high order x w =>
      have width : ∀ s text, (genericRead ⟨text, [(5, x ++ (literal s ++ w)), (4, order), (3, high)] ++ head⟩).width =
          some (high ++ " " ++ Text.toLower order ++ " " ++ x ++ (literal s ++ w)) := fun s text => by
        have read : (genericRead ⟨text, [(5, x ++ (literal s ++ w)), (4, order), (3, high)] ++ head⟩).width =
          some (high ++ " " ++ Text.toLower order ++ " " ++ (x ++ (literal s ++ w))) := rfl
        rw [read]
        simp only [List.append_assoc]
      exact width s text ▸ width s' text' ▸ .literal _ w

theorem kept_of_mem_defaultPart {a : Reading} (h : a ∈ defaultPart.readings before t) : ∃ d, a.kept = [(6, d)] := by
  obtain ⟨mark, hmark, _, grouped, rfl⟩ := Pattern.mem_append.mp h
  obtain ⟨value, hvalue, rfl⟩ := List.mem_map.mp grouped
  have unkept : mark.kept = [] := Pattern.kept_eq_nil (fun _ => rfl) hmark
  exact ⟨value.text, by simp [Reading.append, Reading.keep, unkept, (Pattern.mem_atLeastOne hvalue).2.2]⟩

theorem signature_append_default {a b : Reading} (h : b ∈ (Pattern.optional defaultPart).readings before t) :
    signature (genericRead (a.append b)) = signature (genericRead a) := by
  obtain ⟨text, kept⟩ := b
  rcases List.mem_append.mp h with read | nothing
  · obtain ⟨d, rfl⟩ := kept_of_mem_defaultPart read
    rfl
  · cases List.mem_singleton.mp nothing
    rfl

/-- What a literal may hold in a range: no generic, and no blank, parenthesis or semicolon. -/
structure FitsRange (s : Text) : Prop where
  plain : ∀ c ∈ s, inBound c = true
  endless : ';' ∉ s
  missing : genericHead.search? s = none

instance (s : Text) : Decidable (FitsRange s) :=
  decidable_of_iff ((∀ c ∈ s, inBound c = true) ∧ ';' ∉ s ∧ genericHead.search? s = none)
    ⟨fun ⟨plain, endless, missing⟩ => ⟨plain, endless, missing⟩, fun h => ⟨h.plain, h.endless, h.missing⟩⟩

theorem FitsRange.literal (fits : FitsRange s) : ∀ c ∈ literal s, inBound c = true := by
  have quote : inBound '"' = true := by decide
  simpa [Vhdl.literal, quote, or_imp, forall_and] using fits.plain

theorem FitsRange.quiet (fits : FitsRange s) (before : Option Char) (t : Text) :
    genericPattern.Quiet before (Vhdl.literal s) t :=
  (quiet_literal rfl (by decide) (Pattern.quiet_of_find?_eq_none fits.missing) before t).imp fun _ _ =>
    refuses_genericPattern_iff.mpr

theorem FitsRange.not_mem (fits : FitsRange s) : '(' ∉ s ∧ ')' ∉ s :=
  ⟨fun mem => absurd (fits.plain _ mem) (by decide), fun mem => absurd (fits.plain _ mem) (by decide)⟩

theorem opening_mem_of_mem_genericFront {a : Reading} (h : a ∈ genericFront.readings before t) : '(' ∈ a.text := by
  obtain ⟨front, -, _, -, opening, hopening, rfl⟩ := Pattern.exists_of_mem_append h
  obtain ⟨-, rfl⟩ := Pattern.mem_char.mp hopening
  simp [Reading.append]

theorem FitsRange.keepsBlock (fits : FitsRange s) (y : Text) : KeepsBlock y s where
  unopened _ := by
    refine Option.eq_none_iff_forall_ne_some.mpr fun found search => ?_
    obtain ⟨front, rest, split, -, taken, -⟩ := Pattern.exists_of_find? rfl search
    refine fits.not_mem.1 ?_
    simp [split, opening_mem_of_mem_genericFront taken.mem]
  endless _ _ ends := fits.not_mem.2 (ends.subset (by simp [clauseEnd]))

theorem alike_signaturesIn (fits : FitsRange s) (fits' : FitsRange s') (x r : Text) :
    List.Forall₂ (GenericAlike s s') (signaturesIn (x ++ (literal s ++ r))) (signaturesIn (x ++ (literal s' ++ r))) := by
  have last : ∀ before, lastOf before (literal s) = lastOf before (literal s') := fun before => by
    rw [lastOf_literal, lastOf_literal]
  rw [signaturesIn, signaturesIn, List.forall₂_map_left_iff, List.forall₂_map_right_iff]
  refine Pattern.forall₂_scan_exchange (fun _ => .refl _) rfl last (fun before => fits.quiet before r)
    (fun before => fits'.quiet before r) (fun before z _ _ => ?_) none
  have head : genericHead.Settled '"' before z := Pattern.settled_of_never (by decide) before z
  rw [genericPattern_eq]
  have front : ReadsAlike (fun a a' => GenericAlike s s' (signature (genericRead a)) (signature (genericRead a')))
      (genericHead ++ .optional boundsPart) (literal s) (literal s') r before z := by
    refine .append_optional last (head.readsAlike (R := fun _ _ => False)) (fun u v head split => ?_)
      fun _ unrelated => unrelated.elim
    exact readsAlike_boundsPart fits.literal fits'.literal fun text text' kept keeps => alike_genericRead keeps _ _ head
  refine .append_optional last front (fun u v kept split => ?_) fun read related => ?_
  · exact readsAlike_defaultPart fits.endless fits'.endless fun _ _ _ _ => .refl _
  · rw [signature_append_default read, signature_append_default read]
    exact related

/-- In a range the same generics are found with another literal, up to the literal itself. -/
theorem alike_genericsOf_literal (fits : FitsRange s) (fits' : FitsRange s') (y r : Text) :
    List.Forall₂ (GenericAlike s s') ((genericsOf (y ++ (literal s ++ r))).map signature)
      ((genericsOf (y ++ (literal s' ++ r))).map signature) := by
  rw [genericsOf_eq, genericsOf_eq]
  rcases genericClause?_literal y r with ⟨clause?, same⟩ | ⟨c, opened, more, inside, same⟩
  · rw [same s (fits.keepsBlock y), same s' (fits'.keepsBlock y)]
    exact List.forall₂_same.mpr fun g _ => .refl g
  · rw [same s (fits.keepsBlock y), same s' (fits'.keepsBlock y)]
    simp only [Option.map_some, Option.getD_some, map_signature_genericsIn]
    exact alike_signaturesIn fits fits' c more

end Pinout.Vhdl
