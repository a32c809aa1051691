import Pinout.Proofs.Pattern.WholeWord
import Pinout.Proofs.Text.Lines
import Pinout.Proofs.Vhdl.HeaderScan
import Pinout.Proofs.Vhdl.Uncommented
import Pinout.Vhdl.Declaration

/-! # The surroundings of an entity

The first entity of a source is read from the text between its opening and its end clause. Whole lines
in front of it that do not name an entity, and whatever text behind it, cannot change what is read:
comments and string literals end with their line, and neither pattern reads past a semicolon.
-/

namespace Pinout

namespace Vhdl

variable {a p s t code front opening body rest : Text} {kept : List (Nat × Text)} {replacement : Text → Text}

/-- A pattern that reads no line feed is replaced in whole lines and in what follows them separately. -/
theorem replaceAll_append_of_endsLine {q : Pattern} (reads : q.nullable = false) (never : q.mayRead '\n' = false)
    (ends : Text.EndsLine t) (s : Text) :
    q.replaceAll replacement (t ++ s) = q.replaceAll replacement t ++ q.replaceAll replacement s := by
  rcases ends with rfl | ⟨u, rfl⟩
  · rfl
  · have cut : ∀ s, q.replaceAll replacement (u ++ '\n' :: s) =
        q.replaceAll replacement u ++ '\n' :: q.replaceAll replacement s := fun s =>
      Pattern.replaceAll_append reads never (by decide) u s
    rw [List.append_assoc, List.singleton_append, cut, cut, List.append_assoc]
    rfl

theorem endsLine_flatMap (lines : List Text) : Text.EndsLine (lines.flatMap (· ++ ['\n'])) := by
  rcases List.eq_nil_or_concat' lines with rfl | ⟨lines, line, rfl⟩
  · exact .inl rfl
  · rw [List.flatMap_append, List.flatMap_singleton, ← List.append_assoc]
    exact .inr (List.suffix_append _ _)

theorem endsLine_replaceAll {q : Pattern} (reads : q.nullable = false) (never : q.mayRead '\n' = false)
    (ends : Text.EndsLine t) : Text.EndsLine (q.replaceAll replacement t) := by
  rcases ends with rfl | ⟨u, rfl⟩
  · exact .inl rfl
  · rw [Pattern.replaceAll_append reads never (by decide) u []]
    exact .inr (List.suffix_append _ _)

theorem stripComments_append (ends : Text.EndsLine t) (s : Text) :
    stripComments (t ++ s) = stripComments t ++ stripComments s :=
  replaceAll_append_of_endsLine rfl rfl ends s

theorem endsLine_stripComments (ends : Text.EndsLine t) : Text.EndsLine (stripComments t) :=
  endsLine_replaceAll rfl rfl ends

theorem maskStrings_append (ends : Text.EndsLine t) (s : Text) :
    maskStrings (t ++ s) = maskStrings t ++ maskStrings s :=
  replaceAll_append_of_endsLine rfl rfl ends s

theorem endsLine_maskStrings (ends : Text.EndsLine t) : Text.EndsLine (maskStrings t) :=
  endsLine_replaceAll rfl rfl ends

theorem any_lastOf_of_endsLine (ends : Text.EndsLine t) : (lastOf none t).any Text.isWord = false := by
  rcases ends with rfl | ⟨u, rfl⟩
  · rfl
  · rw [lastOf_append]
    exact (by decide : Text.isWord '\n' = false)

theorem forall₂_maskStrings (t : Text) :
    List.Forall₂ (fun c d => d = c ∨ d = ' ') t (maskStrings t) := by
  refine Pattern.forall₂_replaceAll rfl (fun c => .inl rfl) (fun _ _ a _ => ?_) t
  induction a.text with
  | nil => exact .nil
  | cons c x ih => exact .cons (.inr rfl) ih

theorem mem_of_mem_masked {c : Char} (h : List.Forall₂ (fun c d => d = c ∨ d = ' ') s t) (hc : c ∈ t)
    (visible : c ≠ ' ') : c ∈ s := by
  induction h with
  | nil => cases hc
  | cons same _ ih =>
      rcases List.mem_cons.mp hc with rfl | hc
      · exact List.mem_cons.mpr (.inl (same.resolve_right visible))
      · exact List.mem_cons_of_mem _ (ih hc)

theorem entityPattern_endsAt : entityPattern.EndsAt ';' :=
  Pattern.endsAt_of_never rfl

theorem entityEndPattern_endsAt : entityEndPattern.EndsAt ';' :=
  Pattern.endsAt_append_char rfl

theorem semicolon_of_not_refuses {before : Option Char} (h : ¬ entityEndPattern.Refuses before t) : ';' ∈ t := by
  obtain ⟨a, rest, readings⟩ := List.exists_cons_of_ne_nil h
  have read : a ∈ entityEndPattern.readings before t := readings ▸ List.mem_cons_self
  exact (Pattern.front_of_mem read).subset (semicolon_mem read)

/-- The header of the first entity is an opening and a body that stand between `front` and `rest`. -/
structure HeaderAt (code front opening body rest : Text) (kept : List (Nat × Text)) : Prop where
  split : code = front ++ (opening ++ (body ++ rest))
  /-- No opening begins further in front. -/
  first : entityPattern.Quiet none front (opening ++ (body ++ rest))
  opens : entityPattern.Takes (lastOf none front) opening kept (body ++ rest)
  /-- With strings masked, no end clause begins in the body and one begins behind it. -/
  ends : ∃ u v w, maskStrings code = u ++ (v ++ w) ∧ u.length = front.length + opening.length ∧
    v.length = body.length ∧ entityEndPattern.Quiet (lastOf none u) v w ∧
      ¬ entityEndPattern.Refuses (lastOf none (u ++ v)) w

/-- The text holds the opening of an entity with an end clause behind it. -/
def HoldsEntity (code : Text) : Prop :=
  ∃ opening ∈ entityPattern.findAll code, ∃ ending,
    entityEndPattern.find? ((Cursor.start (maskStrings code)).skip opening.stop.position) = some ending

instance (code : Text) : Decidable (HoldsEntity code) :=
  decidable_of_iff ((entityPattern.findAll code).any fun opening =>
      (entityEndPattern.find? ((Cursor.start (maskStrings code)).skip opening.stop.position)).isSome) <| by
    simp only [HoldsEntity, List.any_eq_true, Option.isSome_iff_exists]

theorem exists_headerAt (holds : HoldsEntity code) :
    ∃ front opening body rest kept, HeaderAt code front opening body rest kept := by
  obtain ⟨later, member, ending, closing⟩ := holds
  obtain ⟨found, search, earlier⟩ := Pattern.exists_search?_of_mem_findAll member
  obtain ⟨front, behind, split, first, opens, -, stop⟩ := Pattern.exists_of_find? rfl search
  generalize found.reading.text = opening at *
  have length : (maskStrings code).length = code.length := (forall₂_maskStrings code).length_eq.symm
  have whole := congrArg List.length split
  simp only [List.length_append] at whole
  obtain ⟨u, z, masked, reached⟩ : ∃ u z, maskStrings code = u ++ z ∧ u.length = found.stop.position :=
    ⟨_, _, (List.take_append_drop found.stop.position _).symm, by rw [List.length_take]; omega⟩
  obtain ⟨more, onward⟩ := Nat.exists_eq_add_of_le earlier
  rw [onward, Cursor.skip_add, Cursor.start, masked, ← reached, Cursor.skip_append, Cursor.skip_eq] at closing
  -- an end clause behind a later opening is one behind the first
  have ended : ∃ clause, entityEndPattern.find? ⟨lastOf none u, 0 + u.length, z⟩ = some clause := by
    cases found : entityEndPattern.find? ⟨lastOf none u, 0 + u.length, z⟩ with
    | some clause => exact ⟨clause, rfl⟩
    | none =>
        rw [← List.take_append_drop more z] at found
        rw [Pattern.find?_eq_none_behind rfl found] at closing
        cases closing
  obtain ⟨clause, ended⟩ := ended
  obtain ⟨v, s, rfl, quiet, ends, -, -⟩ := Pattern.exists_of_find? rfl ended
  have inside : v.length ≤ behind.length := by
    rw [masked] at length
    simp only [List.length_append] at length
    omega
  have body : behind.take v.length ++ behind.drop v.length = behind := List.take_append_drop _ _
  refine ⟨front, opening, behind.take v.length, behind.drop v.length, found.reading.kept,
    by rw [body, split], body.symm ▸ first, body.symm ▸ opens, u, v, clause.reading.text ++ s, masked, ?_,
    (List.length_take_of_le inside).symm, quiet, ?_⟩
  · omega
  · rw [lastOf_append]
    exact ends.not_refuses

namespace HeaderAt

variable (h : HeaderAt code front opening body rest kept)
include h

theorem headerOf_eq : headerOf code = opening ++ body := by
  obtain ⟨found, search, -, start, stop⟩ := Pattern.find?_of_quiet_of_takes h.first h.opens 0
  obtain ⟨u, v, w, masked, length, same, quiet, ends⟩ := h.ends
  obtain ⟨clause, closing, place⟩ := Pattern.find?_of_not_refuses (lastOf_append none u v ▸ ends)
    (u.length + v.length)
  have there := Pattern.find?_of_quiet quiet u.length
  rw [closing] at there
  have search' : entityPattern.search? code = some found := by rw [Pattern.search?, Cursor.start, h.split, search]
  have skipped : (Cursor.start (maskStrings code)).skip found.stop.position = ⟨lastOf none u, u.length, v ++ w⟩ := by
    rw [masked, stop, Nat.zero_add, ← length, Cursor.start, Cursor.skip_append, Nat.zero_add]
  simp only [headerOf, search', skipped, there, place, start, Nat.zero_add]
  have count : u.length + v.length - front.length = (opening ++ body).length := by
    rw [List.length_append]
    omega
  rw [h.split, List.drop_left, count, ← List.append_assoc, List.take_left]

theorem search?_eq : ∃ found, entityPattern.search? code = some found ∧ found.reading = ⟨opening, kept⟩ := by
  obtain ⟨found, search, reading, -, -⟩ := Pattern.find?_of_quiet_of_takes h.first h.opens 0
  exact ⟨found, by rw [Pattern.search?, Cursor.start, h.split, search], reading⟩

theorem semicolon_mem_rest : ';' ∈ rest := by
  obtain ⟨u, v, w, masked, length, same, -, ends⟩ := h.ends
  have related := forall₂_maskStrings code
  rw [masked, h.split, ← List.append_assoc, ← List.append_assoc, ← List.append_assoc] at related
  have behind := List.forall₂_drop (front ++ opening ++ body).length related
  have count : (front ++ opening ++ body).length = (u ++ v).length := by
    simp only [List.length_append]
    omega
  rw [List.drop_left, count, List.drop_left] at behind
  exact mem_of_mem_masked behind (semicolon_of_not_refuses ends) (by decide)

/-- Lines in front in which no entity opens, and any text behind, move the header and leave it as it is. -/
theorem surround (lines : Text.EndsLine p) (masks : maskStrings (code ++ t) = maskStrings code ++ maskStrings t)
    (quiet : ∀ s, entityPattern.Quiet none p s) :
    HeaderAt (p ++ (code ++ t)) (p ++ front) opening body (rest ++ t) kept := by
  obtain ⟨u, v, w, masked, length, same, silent, ending⟩ := h.ends
  have inRest : ';' ∈ opening ++ (body ++ rest) := by simp [h.semicolon_mem_rest]
  have outside : ∀ t, Text.EndsLine t → (none : Option Char).any Text.isWord = (lastOf none t).any Text.isWord :=
    fun t lines => (any_lastOf_of_endsLine lines).symm
  have behind : ∀ x t, Text.EndsLine t →
      (lastOf none x).any Text.isWord = (lastOf none (t ++ x)).any Text.isWord := fun x t lines => by
    rw [lastOf_append]
    exact Pattern.any_lastOf_congr (outside t lines) x
  have masked' := endsLine_maskStrings lines
  refine ⟨?_, ?_, ?_, maskStrings p ++ u, v, w ++ maskStrings t, ?_, ?_, same, ?_, ?_⟩
  · rw [h.split]
    simp only [List.append_assoc]
  · refine (quiet _).append ((Pattern.Quiet.behind ?_ (outside p lines)))
    rw [← List.append_assoc, ← List.append_assoc, List.append_assoc opening]
    exact (entityPattern_endsAt.quiet inRest t).mpr h.first
  · refine Pattern.Takes.behind ?_ (behind front p lines)
    rw [← List.append_assoc]
    exact (entityPattern_endsAt.takes (List.mem_append_right body h.semicolon_mem_rest) t).mpr h.opens
  · rw [maskStrings_append lines, masks, masked]
    simp only [List.append_assoc]
  · rw [List.length_append, List.length_append, length, (forall₂_maskStrings p).length_eq]
    omega
  · refine Pattern.Quiet.behind ?_ (behind u _ masked')
    exact (entityEndPattern_endsAt.quiet (semicolon_of_not_refuses ending) _).mpr silent
  · rw [List.append_assoc, entityEndPattern_endsAt.refuses (semicolon_of_not_refuses ending), Pattern.Refuses,
      ← Pattern.readings_behind (behind (u ++ v) _ masked')]
    exact ending

end HeaderAt

/-- The word that names an entity in its opening. -/
def standaloneEntity : Pattern :=
  .wholeWord (.keyword "entity")

theorem entityPattern_ledBy : entityPattern.LedBy (.keyword "entity") :=
  Pattern.ledBy_gap (Pattern.readsWords_keyword (by decide) (by decide))
    (.group 1 .word ++ (.gap ++ (.keyword "is" ++ .boundary))) fun before t => by
      simp only [entityPattern, Pattern.readings_append_assoc]

theorem quiet_of_no_entity (lines : Text.EndsLine t) (h : standaloneEntity.search? t = none) (s : Text) :
    entityPattern.Quiet none t s := by
  have quiet := Pattern.quiet_of_find?_eq_none h
  rcases lines with rfl | ⟨u, rfl⟩
  · trivial
  · have ends : standaloneEntity.EndsAt '\n' := Pattern.endsAt_of_never rfl
    have word := (Pattern.quiet_append.mp quiet).1
    have anywhere := (ends.quiet (by simp) s).mpr word
    refine (anywhere.imp entityPattern_ledBy.refuses).append ?_
    exact ⟨Pattern.refuses_of_stops rfl (Pattern.stops_cons.mpr (by decide)), trivial⟩

/-- What stands around the first entity of a source does not change what is reported for it. -/
theorem interface_surround (lines : Text.EndsLine p) (noEntity : standaloneEntity.search? (stripComments p) = none)
    (ends : Text.EndsLine a) (holds : HoldsEntity (stripComments a)) (t : Text) :
    interface (p ++ a ++ t) = interface a := by
  have quiet := quiet_of_no_entity (endsLine_stripComments lines) noEntity
  obtain ⟨front, opening, body, rest, kept, there⟩ := exists_headerAt holds
  have around := there.surround (endsLine_stripComments lines)
    (maskStrings_append (endsLine_stripComments ends) (stripComments t)) quiet
  have stripped : stripComments (p ++ a ++ t) = stripComments p ++ (stripComments a ++ stripComments t) := by
    rw [List.append_assoc, stripComments_append lines, stripComments_append ends]
  have headers : header (p ++ a ++ t) = header a := by
    rw [header, header, stripped, around.headerOf_eq, there.headerOf_eq]
  have names : unitName (p ++ a ++ t) = unitName a := by
    obtain ⟨found, search, reading⟩ := there.search?_eq
    obtain ⟨found', search', reading'⟩ := around.search?_eq
    rw [unitName, unitName, stripped, search, search']
    simp only [← Match.group_reading, reading, reading']
  simp only [interface, ports, generics, headers, names]

/-- Lines in front of an entity. -/
def contextText : Text :=
  "library ieee; -- not an entity x is\nuse ieee.std_logic_1164.all;\n"

/-- An entity whose default and comment hold end clauses. -/
def taggedEntity : Text :=
  "entity counter is -- end;\n  generic (tag : string := \"end;\");\n  port (q : out std_logic);\nend counter;\n"

/-- A text behind an entity, with another entity and an unfinished string. -/
def architectureText : Text :=
  "architecture rtl of counter is\n  signal s : string := \"end;\nentity other is end; -- entity"

theorem interface_surround_taggedEntity :
    Text.EndsLine contextText ∧ standaloneEntity.search? (stripComments contextText) = none ∧
      Text.EndsLine taggedEntity ∧ HoldsEntity (stripComments taggedEntity) ∧
      interface (contextText ++ taggedEntity ++ architectureText) = interface taggedEntity := by
  have lines : Text.EndsLine contextText := .inr (by decide)
  have noEntity : standaloneEntity.search? (stripComments contextText) = none :=
    Option.isNone_iff_eq_none.mp (by decide +kernel)
  have ends : Text.EndsLine taggedEntity := .inr (by decide)
  have holds : HoldsEntity (stripComments taggedEntity) := by decide +kernel
  exact ⟨lines, noEntity, ends, holds, interface_surround lines noEntity ends holds architectureText⟩

end Vhdl

end Pinout
