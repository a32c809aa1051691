import Pinout.Proofs.Text.Lines
import Pinout.Proofs.Text.Trim

/-! # Other blanks

Indenting a text changes its blanks and nothing else: where blanks stood, there are blanks, and every
other character is where it was among its like.
-/

namespace Pinout.Text

variable {c : Char} {g k s t t' v margin : Text}

/-- The second text is the first one with other blanks in the places of its blanks. -/
inductive Respaced : Text → Text → Prop
  | nil : Respaced [] []
  | keep (c : Char) {t t' : Text} : Respaced t t' → Respaced (c :: t) (c :: t')
  /-- Blanks become other blanks. -/
  | space {g g' t t' : Text} : g ≠ [] → (∀ c ∈ g, isBlank c = true) → g' ≠ [] → (∀ c ∈ g', isBlank c = true) →
      Respaced t t' → Respaced (g ++ t) (g' ++ t')

namespace Respaced

theorem exists_of_cons (h : Respaced t (c :: t')) (visible : isBlank c = false) :
    ∃ s, t = c :: s ∧ Respaced s t' := by
  generalize whole : c :: t' = w at h
  cases h with
  | nil => cases whole
  | keep d kept =>
      cases whole
      exact ⟨_, rfl, kept⟩
  | @space g g' s s' _ _ nonempty blank _ =>
      obtain ⟨d, g', rfl⟩ := List.exists_cons_of_ne_nil nonempty
      cases whole
      rw [blank c (by simp)] at visible
      cases visible

/-- What is not blank is found again. -/
theorem exists_of_append (h : Respaced t (k ++ t')) (visible : ∀ c ∈ k, isBlank c = false) :
    ∃ s, t = k ++ s ∧ Respaced s t' := by
  induction k generalizing t with
  | nil => exact ⟨t, rfl, h⟩
  | cons c k ih =>
      obtain ⟨s, rfl, behind⟩ := h.exists_of_cons (visible c (by simp))
      obtain ⟨rest, rfl, kept⟩ := ih behind fun d hd => visible d (by simp [hd])
      exact ⟨rest, rfl, kept⟩

theorem trimLeft (h : Respaced t t') : Respaced (trimLeft t) (trimLeft t') := by
  induction h with
  | nil => exact .nil
  | @keep c s s' kept ih =>
      rw [Text.trimLeft, Text.trimLeft, List.dropWhile_cons, List.dropWhile_cons]
      split
      · exact ih
      · exact .keep c kept
  | space _ blank _ blank' _ ih => rwa [trimLeft_append blank, trimLeft_append blank']

theorem isBlank_head (h : Respaced t t') : t.head?.any isBlank = t'.head?.any isBlank := by
  cases h with
  | nil => rfl
  | keep => rfl
  | space nonempty blank nonempty' blank' _ =>
      obtain ⟨c, g, rfl⟩ := List.exists_cons_of_ne_nil nonempty
      obtain ⟨d, g', rfl⟩ := List.exists_cons_of_ne_nil nonempty'
      simp [blank c (by simp), blank' d (by simp)]

theorem exists_of_blanks (h : Respaced t (g ++ c :: t')) (blank : ∀ d ∈ g, isBlank d = true)
    (visible : isBlank c = false) :
    ∃ g' s, t = g' ++ c :: s ∧ (∀ d ∈ g', isBlank d = true) ∧ (g ≠ [] → g' ≠ []) ∧ Respaced s t' := by
  have rest := h.trimLeft
  have visible' : Text.trimLeft (c :: t') = c :: t' := by simp [Text.trimLeft, visible]
  rw [trimLeft_append blank, visible'] at rest
  obtain ⟨s, behind, kept⟩ := rest.exists_of_cons visible
  obtain ⟨g', blank', split⟩ := exists_trimLeft t
  rw [behind] at split
  refine ⟨g', s, split, blank', fun nonempty => ?_, kept⟩
  rintro rfl
  obtain ⟨d, g, rfl⟩ := List.exists_cons_of_ne_nil nonempty
  have heads := h.isBlank_head
  rw [split] at heads
  simp [visible, blank d (by simp)] at heads

theorem pair_infix_of_blanks_append {a b : Char} (blank : ∀ c ∈ g, isBlank c = true) (visible : isBlank a = false)
    (pair : [a, b] <:+: g ++ t) : [a, b] <:+: t := by
  induction g with
  | nil => exact pair
  | cons c g ih =>
      rcases List.infix_cons_iff.mp pair with ⟨s, split⟩ | inside
      · rw [(List.cons.inj split).1, blank c (by simp)] at visible
        cases visible
      · exact ih (fun d hd => blank d (by simp [hd])) inside

theorem pair_infix {a b : Char} (h : Respaced t t') (visible : isBlank a = false) (visible' : isBlank b = false)
    (pair : [a, b] <:+: t') : [a, b] <:+: t := by
  induction h with
  | nil => exact pair
  | keep c kept ih =>
      rcases List.infix_cons_iff.mp pair with ⟨s, split⟩ | inside
      · obtain ⟨rfl, rfl⟩ := List.cons.inj split
        obtain ⟨s, rfl, -⟩ := kept.exists_of_cons visible'
        exact ⟨[], s, rfl⟩
      · exact (ih inside).trans (List.suffix_cons c _).isInfix
  | space _ _ _ blank _ ih =>
      exact (ih (pair_infix_of_blanks_append blank visible pair)).trans (List.suffix_append _ _).isInfix

theorem nil_iff (h : Respaced t t') : t = [] ↔ t' = [] := by
  cases h with
  | nil => simp
  | keep => simp
  | space nonempty _ nonempty' _ _ => simp [nonempty, nonempty']

theorem getLast? (h : Respaced t t') (last : t.getLast? = some c) (visible : isBlank c = false) :
    t'.getLast? = some c := by
  induction h with
  | nil => cases last
  | @keep d s s' kept ih =>
      by_cases empty : s = []
      · rw [empty] at last
        rw [kept.nil_iff.mp empty]
        exact last
      · have nonempty : s' ≠ [] := fun empty' => empty (kept.nil_iff.mpr empty')
        rw [List.getLast?_cons_of_ne_nil empty] at last
        rw [List.getLast?_cons_of_ne_nil nonempty]
        exact ih last
  | @space g g' s s' _ blank _ _ kept ih =>
      by_cases empty : s = []
      · rw [empty, List.append_nil] at last
        rw [blank c (List.mem_of_getLast? last)] at visible
        cases visible
      · have nonempty : s' ≠ [] := fun empty' => empty (kept.nil_iff.mpr empty')
        rw [List.getLast?_append_of_ne_nil _ empty] at last
        rw [List.getLast?_append_of_ne_nil _ nonempty]
        exact ih last

end Respaced

theorem isBlank_of_isLineBreak (h : isLineBreak c = true) : isBlank c = true := by
  have all : ∀ d ∈ ['\n', '\x0b', '\x0c', '\r', '\x1c', '\x1d', '\x1e', '\u0085', '\u2028', '\u2029'],
      isBlank d = true := by decide +kernel
  exact all c (of_decide_eq_true h)

theorem joinLines_append_cons (margin line : Text) (more : List Text) :
    joinLines ((margin ++ line) :: more) = margin ++ joinLines (line :: more) := by
  cases more with
  | nil => rw [joinLines_singleton, joinLines_singleton]
  | cons next more => rw [joinLines_cons_cons, joinLines_cons_cons, List.append_assoc]

theorem respaced_break {line : Text} {more : List Text} (blank : ∀ c ∈ margin, isBlank c = true) (nonempty : g ≠ [])
    (breaks : ∀ c ∈ g, isBlank c = true) (h : Respaced t (joinLines (line :: more))) :
    Respaced (g ++ t) (joinLines ([] :: indentLine margin line :: more)) := by
  have indented : ∃ g, (∀ c ∈ g, isBlank c = true) ∧ indentLine margin line = g ++ line := by
    rw [indentLine]
    split
    · rename_i empty
      exact ⟨[], by simp, (List.isEmpty_iff.mp empty).symm⟩
    · exact ⟨margin, blank, rfl⟩
  obtain ⟨g', blank', indented⟩ := indented
  rw [indented, joinLines_cons_cons, joinLines_append_cons, List.nil_append, ← List.cons_append]
  exact .space nonempty breaks (by simp) (List.forall_mem_cons.mpr ⟨by decide, blank'⟩) h

theorem getLast?_ne_of_cons (h : (c :: t).getLast? ≠ some '\r') : t.getLast? ≠ some '\r' := by
  by_cases empty : t = []
  · simp [empty]
  · rwa [List.getLast?_cons_of_ne_nil empty] at h

/-- Indenting changes blanks only. A carriage return at the end would be taken for a part of the last
line break. -/
theorem respaced_indentRest (blank : ∀ c ∈ margin, isBlank c = true) (ends : t.getLast? ≠ some '\r') :
    Respaced t (indentRest margin t) := by
  have split : ∃ line more, lines (t ++ ['\n']) = line :: more ∧
      Respaced t (joinLines (line :: more.map (indentLine margin))) := by
    induction t using lines.induct with
    | case1 => exact ⟨[], [], rfl, .nil⟩
    | case2 rest ih =>
        obtain ⟨line, more, split, respaced⟩ := ih (getLast?_ne_of_cons (getLast?_ne_of_cons ends))
        refine ⟨[], line :: more, ?_, respaced_break blank (g := ['\r', '\n']) (by simp) (by decide) respaced⟩
        rw [List.cons_append, List.cons_append, lines, split]
    | case3 c rest differs breaks ih =>
        obtain ⟨line, more, split, respaced⟩ := ih (getLast?_ne_of_cons ends)
        have blanks : ∀ d ∈ [c], isBlank d = true := List.forall_mem_singleton.mpr (isBlank_of_isLineBreak breaks)
        refine ⟨[], line :: more, ?_, respaced_break blank (by simp) blanks respaced⟩
        rw [List.cons_append, lines_cons_of_break breaks ?_, split]
        rintro s rfl next
        cases rest with
        | nil => exact ends rfl
        | cons d rest => exact differs rest rfl (by rw [(List.cons.inj next).1])
    | case4 c rest _ plain _ ih | case5 c rest _ plain _ _ _ ih =>
        obtain ⟨line, more, split, respaced⟩ := ih (getLast?_ne_of_cons ends)
        refine ⟨c :: line, more, lines_cons_of_not_break (by simpa using plain) split, ?_⟩
        rw [show c :: line = [c] ++ line from rfl, joinLines_append_cons]
        exact .keep c respaced
  obtain ⟨line, more, split, respaced⟩ := split
  rwa [indentRest, split]

end Pinout.Text
