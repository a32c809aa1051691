import Pinout.Proofs.Vhdl.Extracted
import Pinout.Proofs.Vhdl.MaskedHeader

/-! # A header on its own

The header that is cut out of a source is a source in turn. Both cuts are made where nothing is torn apart: a
header begins with a word, and what it is cut in front of can be read as an end clause. So nothing else is found
in the header alone than in the whole source, as long as no literal is open where the entity begins.
-/

namespace Pinout

open Pattern (Stops stops_cons stops_nil stops_take)

namespace Text

variable {t : Text}

theorem exists_lines_lastLine (t : Text) : ∃ lines, t = lines ++ lastLine t ∧ EndsLine lines := by
  refine ⟨t.rdropWhile (· != '\n'), List.rdropWhile_append_rtakeWhile.symm, ?_⟩
  cases lines : t.rdropWhile (· != '\n') using List.reverseRecOn with
  | nil => exact .inl rfl
  | append_singleton u c =>
      have last := List.rdropWhile_last_not (· != '\n') t (by simp [lines])
      simp only [lines, List.getLast_append_singleton, bne_iff_ne, not_not] at last
      exact .inr ⟨u, by rw [last]⟩

end Text

namespace Vhdl

variable {source code front opening rest s t x y : Text} {before before' : Option Char}
  {kept : List (Nat × Text)} {n : Nat}

theorem maskStrings_append_of_unquoted (unquoted : '"' ∉ t.lastLine) (s : Text) :
    maskStrings (t ++ s) = maskStrings t ++ maskStrings s := by
  obtain ⟨lines, split, ends⟩ := Text.exists_lines_lastLine t
  rw [split, List.append_assoc, maskStrings_append ends, maskStrings_append ends, maskStrings_unquoted unquoted,
    maskStrings_of_not_mem unquoted, List.append_assoc]

/-- A text that is not cut in front of a blank of its mask is not cut in a literal. -/
theorem maskStrings_take (visible : Stops (· == ' ') ((maskStrings t).drop n)) :
    maskStrings (t.take n) = (maskStrings t).take n := by
  induction t using string_induction generalizing n with
  | nil => rw [List.take_nil, maskStrings_of_not_mem List.not_mem_nil, List.take_nil]
  | quoted l s contents ih =>
      rw [maskStrings_quoted contents, List.drop_append, List.drop_replicate, List.length_replicate] at visible
      have behind : (literal l).length ≤ n := by
        -- What is left of the literal would be blanks of the mask.
        by_contra inside
        obtain ⟨m, left⟩ := Nat.exists_eq_add_of_lt (Nat.sub_pos_of_lt (Nat.lt_of_not_le inside))
        rw [left, List.replicate_succ] at visible
        cases stops_cons.mp visible
      rw [Nat.sub_eq_zero_of_le behind, List.replicate_zero, List.nil_append] at visible
      rw [List.take_append, List.take_of_length_le behind, maskStrings_quoted contents, maskStrings_quoted contents,
        List.take_append, List.take_replicate, Nat.min_eq_right behind, List.length_replicate, ih visible]
  | unclosed l s contents stops ih =>
      -- The quote is not closed in the part either: the part ends on its line, or the line ends as before.
      cases n with
      | zero => rfl
      | succ n =>
          have contents' : IsContents (l.take n) :=
            ⟨mt List.mem_of_mem_take contents.unquoted, mt List.mem_of_mem_take contents.inline⟩
          have stops' : Stops (· != '\n') (s.take (n - l.length)) := stops_take stops _
          have masked : maskStrings (s.take (n - l.length)) = (maskStrings s).take (n - l.length) := by
            rcases Nat.le_total n l.length with inside | behind
            · rw [Nat.sub_eq_zero_of_le inside]
              rfl
            · refine ih ?_
              rwa [maskStrings_unclosed contents stops, List.drop_succ_cons, List.drop_append,
                List.drop_eq_nil_of_le behind] at visible
          rw [List.take_succ_cons, List.take_append, maskStrings_unclosed contents stops, List.take_succ_cons,
            List.take_append, maskStrings_unclosed contents' stops', masked]
  | plain c s other ih =>
      rw [maskStrings_plain other] at visible ⊢
      cases n with
      | zero => rfl
      | succ n => rw [List.take_succ_cons, List.take_succ_cons, maskStrings_plain other, ih visible]

theorem stops_blank_of_not_refuses (ends : ¬ entityEndPattern.Refuses before y) : Stops (· == ' ') y := by
  cases y with
  | nil => exact stops_nil
  | cons c y =>
      refine stops_cons.mpr (beq_eq_false_iff_ne.mpr ?_)
      rintro rfl
      exact ends (Pattern.refuses_of_stops rfl (stops_cons.mpr rfl))

theorem quiet_end_alone (quiet : entityEndPattern.Quiet before x y) : entityEndPattern.Quiet before x [] := by
  induction x generalizing before with
  | nil => trivial
  | cons c x ih =>
      refine ⟨?_, ih quiet.2⟩
      rw [List.append_nil]
      by_cases semicolon : ';' ∈ c :: x
      · exact (entityEndPattern_endsAt.refuses semicolon y).mp quiet.1
      · exact Pattern.refuses_iff.mpr fun a ha => semicolon ((Pattern.front_of_mem ha).subset (semicolon_mem ha))

/-- No quote stands in front of the first entity on the line on which it begins. -/
def OpensUnquoted (code : Text) : Prop :=
  ∀ found, entityPattern.search? code = some found → '"' ∉ Text.lastLine (code.take found.start.position)

instance (code : Text) : Decidable (OpensUnquoted code) :=
  decidable_of_iff (∀ found ∈ entityPattern.search? code, '"' ∉ Text.lastLine (code.take found.start.position)) Iff.rfl

theorem length_masked (front opening : Text) :
    (maskStrings front ++ opening).length = front.length + opening.length := by
  rw [List.length_append, length_maskStrings]

namespace OpeningAt

variable (h : OpeningAt code front opening rest kept)
include h

theorem alone (n : Nat) : OpeningAt (opening ++ rest.take n) [] opening (rest.take n) kept := by
  obtain ⟨name, opens, rfl, wordEnds⟩ := isOpening_of_mem (a := ⟨opening, kept⟩) h.opens.mem
  exact ⟨rfl, trivial, opens.takes rfl (stops_take wordEnds n)⟩

theorem masked (unquoted : '"' ∉ Text.lastLine front) :
    maskStrings code = (maskStrings front ++ opening) ++ maskStrings rest := by
  have plain : '"' ∉ opening := Pattern.not_mem_of_never (by decide +kernel) h.opens.mem
  rw [h.split, maskStrings_append_of_unquoted unquoted, maskStrings_unquoted plain, List.append_assoc]

/-- The header goes up to a place in what follows the opening, and the same header is found on its own. -/
theorem exists_headerOf (unquoted : '"' ∉ Text.lastLine front) :
    ∃ n, headerOf code = opening ++ rest.take n ∧ headerOf (opening ++ rest.take n) = opening ++ rest.take n := by
  have last : ∀ u, lastOf none (u ++ opening) = lastOf none opening := fun u => by
    rw [← Pattern.lastOf_suffix none (h.opens.ne_nil rfl) (List.suffix_append u opening)]
  obtain ⟨x, y, split, quiet, ends⟩ := entityEndPattern.exists_quiet rfl (lastOf none opening) (maskStrings rest)
  refine ⟨x.length, ?_, ?_⟩
  · rcases ends with rfl | ends
    · have all : rest.take x.length = rest := by
        rw [← List.append_nil x, ← split, length_maskStrings, List.take_length]
      rw [List.append_nil] at split
      rw [h.headerOf_eq_of_quiet (h.masked unquoted) (length_masked front opening) (by rwa [last, split]), all]
    · refine h.headerOf_eq_take (h.masked unquoted) (length_masked front opening) split (by rwa [last]) ?_
      rwa [lastOf_append, last]
  · -- Alone, the header is masked as in the whole text, so that the quiet stretch is all of it.
    have visible : Stops (· == ' ') ((maskStrings rest).drop x.length) := by
      rw [split, List.drop_left]
      exact ends.elim (fun none => none ▸ stops_nil) stops_blank_of_not_refuses
    have masked := (h.alone x.length).masked List.not_mem_nil
    rw [maskStrings_take visible, split, List.take_left] at masked
    refine (h.alone x.length).headerOf_eq_of_quiet masked (length_masked [] opening) ?_
    rw [last]
    exact quiet_end_alone quiet

theorem unitName_eq (stripped : stripComments source = code) :
    unitName source = (⟨opening, kept⟩ : Reading).group 1 := by
  obtain ⟨found, search, reading, -, -⟩ := h.search?_eq
  rw [unitName, stripped, search, ← reading, Match.group_reading]

end OpeningAt

/-- The header of a source has the header, the name, the ports and the generics of the source. -/
theorem header_alone (unquoted : OpensUnquoted (stripComments source)) :
    header (header source) = header source ∧ unitName (header source) = unitName source ∧
      ports (header source) = ports source ∧ generics (header source) = generics source := by
  have stripped := stripComments_eq_self (not_dashes_infix_header source)
  have same : header (header source) = header source ∧ unitName (header source) = unitName source := by
    cases search : entityPattern.search? (stripComments source) with
    | none =>
        have whole : header source = stripComments source := by rw [header, headerOf, search]
        rw [whole] at stripped
        rw [whole, header, unitName, unitName, stripped]
        exact ⟨whole, rfl⟩
    | some found =>
        obtain ⟨front, opening, rest, kept, there⟩ := exists_openingAt (Option.isSome_iff_exists.mpr ⟨found, search⟩)
        obtain ⟨found', search', -, start, -⟩ := there.search?_eq
        have plain : '"' ∉ Text.lastLine front := by
          have := unquoted found' search'
          rwa [start, there.split, List.take_left] at this
        obtain ⟨n, cut, alone⟩ := there.exists_headerOf plain
        have cut' : header source = opening ++ rest.take n := cut
        rw [cut'] at stripped ⊢
        exact ⟨by rw [header, stripped, alone], by rw [(there.alone n).unitName_eq stripped, there.unitName_eq rfl]⟩
  refine ⟨same.1, same.2, ?_, ?_⟩
  · rw [ports, ports, same.1]
  · rw [generics, generics, same.1]

/-- An entity between other lines, with end clauses in a default and in an unfinished string behind it. -/
def framedEntity : Text :=
  "use work.\"+\"; -- \"\nentity e is generic (tag : string := \"end;\"); end e;\nsignal s : string := \"end;"

theorem header_alone_framedEntity :
    OpensUnquoted (stripComments framedEntity) ∧
      header (header framedEntity) = header framedEntity ∧ unitName (header framedEntity) = unitName framedEntity ∧
        ports (header framedEntity) = ports framedEntity ∧ generics (header framedEntity) = generics framedEntity := by
  have unquoted : OpensUnquoted (stripComments framedEntity) := by decide +kernel
  exact ⟨unquoted, header_alone unquoted⟩

/-- An end clause in a literal counts once the quote in front of the entity is gone. -/
example : header "\" entity e is end; \"" = "entity e is end; \"".toList ∧
    header "entity e is end; \"" = "entity e is ".toList := by
  decide +kernel

end Vhdl

end Pinout
