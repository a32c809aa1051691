import Pinout.Proofs.Pattern.Passage

/-! # Whole words

Most patterns begin with a keyword that has to stand by itself. Where that word does not occur, such a
pattern finds nothing, whatever else the text holds; and where it occurs as a name, the mark behind the
name decides.
-/

namespace Pinout.Pattern

variable {p k q : Pattern} {before : Option Char} {c : Char} {g s t w x y : Text}

/-- Reads what `k` reads if it is a whole word. -/
def wholeWord (k : Pattern) : Pattern :=
  .boundary ++ k ++ .boundary

/-- The pattern reads words: word characters, at least one. -/
def ReadsWords (k : Pattern) : Prop :=
  ∀ before t, ∀ a ∈ k.readings before t, a.text ≠ [] ∧ ∀ c ∈ a.text, Text.isWord c = true

theorem readsWords_keyword (key : ∀ letter ∈ t, isKeyLetter letter = true) (nonempty : t ≠ []) :
    (keyword t).ReadsWords := fun _ _ _ h =>
  ⟨(mem_keyword h).2.ne_nil nonempty, (mem_keyword h).2.word key⟩

theorem readsWords_exactly (word : ∀ c ∈ t, Text.isWord c = true) (nonempty : t ≠ []) :
    (exactly t).ReadsWords := fun _ _ _ h => by
  rw [mem_exactly h]
  exact ⟨nonempty, word⟩

theorem ReadsWords.orElse (first : p.ReadsWords) (second : q.ReadsWords) : (p <|> q).ReadsWords :=
  fun before t a h => (List.mem_append.mp h).elim (first before t a) (second before t a)

/-- The pattern begins with a whole word that `k` reads. -/
structure LedBy (p k : Pattern) : Prop where
  words : k.ReadsWords
  refuses : ∀ before t, (wholeWord k).Refuses before t → p.Refuses before t

theorem wholeWord_reads_word (words : k.ReadsWords) {a : Reading} (h : a ∈ (wholeWord k).readings before t) :
    ∀ c ∈ a.text, Text.isWord c = true := by
  obtain ⟨front, hfront, _, -, closing, hclosing, rfl⟩ := exists_of_mem_append h
  obtain ⟨opening, hopening, _, -, read, hread, rfl⟩ := exists_of_mem_append hfront
  obtain ⟨-, rfl⟩ := mem_boundary.mp hopening
  obtain ⟨-, rfl⟩ := mem_boundary.mp hclosing
  simp only [Reading.append, Reading.nothing, List.nil_append, List.append_nil]
  exact (words _ _ read hread).2

theorem refuses_wholeWord_append :
    (wholeWord k).Refuses before t ↔ isEdge before t = false ∨ (k ++ .boundary).Refuses before t := by
  rw [wholeWord, refuses_append_assoc, refuses_boundary_append]

theorem ledBy_gap (words : k.ReadsWords) (q : Pattern)
    (same : ∀ before t, p.readings before t = (.boundary ++ (k ++ (.gap ++ q)) : Pattern).readings before t) :
    p.LedBy k where
  words := words
  refuses before t h := by
    rw [Refuses, same]
    refine refuses_boundary_append.mpr ((refuses_wholeWord_append.mp h).imp_right fun none => ?_)
    refine refuses_append fun a s ha split => ?_
    subst split
    have edge := none.behind ha
    obtain ⟨nonempty, word⟩ := words before _ a ha
    have inside : (lastOf before a.text).any Text.isWord = true := any_lastOf nonempty word
    refine (refuses_of_stops (p := gap) rfl fun c hc => ?_).append
    by_contra blank
    have plain : Text.isWord c = false := Text.isWord_of_isBlank (by simpa [gap] using blank)
    have ends : isEdge (lastOf before a.text) s = true := by simp [isEdge, inside, Option.mem_def.mp hc, plain]
    rw [Refuses, readings, if_pos ends] at edge
    cases edge

namespace LedBy

variable (led : p.LedBy k)
include led

theorem begins : p.BeginsWord := by
  intro before t inside
  refine led.refuses before t (refuses_wholeWord_append.mpr ?_)
  by_cases stops : Stops Text.isWord t
  · refine .inr (refuses_append fun a s ha split => ?_)
    obtain ⟨nonempty, word⟩ := led.words before t a ha
    obtain ⟨c, x, text⟩ := List.exists_cons_of_ne_nil nonempty
    have plain := stops c (by rw [split, text]; rfl)
    rw [word c (by simp [text])] at plain
    cases plain
  · have word := inside.resolve_right stops
    cases t with
    | nil => exact absurd stops_nil stops
    | cons c t =>
        rw [stops_cons, Bool.not_eq_false] at stops
        exact .inl (isEdge_inside word stops)

/-- Nothing begins in a text without the word, if no word runs on behind it. -/
theorem quiet_of_search? (h : (wholeWord k).search? x = none) (stops : Stops Text.isWord s) :
    p.Quiet before x s := by
  have alone : (wholeWord k).Quiet none x [] := quiet_of_find?_eq_none h
  have there : (wholeWord k).Quiet none x s := by
    refine alone.elsewhere rfl stops.any.symm fun y z _ _ before a ha => ?_
    exact front_of_stops (front_of_mem ha) (wholeWord_reads_word led.words ha) stops
  exact led.begins.quiet_behind (there.imp led.refuses) before

end LedBy

/-- The pattern goes on with no word in front of the mark. -/
def DeadAt (p : Pattern) (c : Char) : Prop :=
  ∀ before w g s, (∀ d ∈ w, Text.isWord d = true) → (∀ d ∈ g, Text.isBlank d = true) →
    p.Refuses before (w ++ (g ++ c :: s))

namespace LedBy

variable (led : p.LedBy k)
include led

theorem passes_plain (plain : ∀ c ∈ x, Text.isWord c = false) : p.Passes x := fun _ _ =>
  led.begins.quiet_of_no_word plain

theorem passes_of_search? (h : (wholeWord k).search? x = none) (plain : Text.isWord c = false) :
    p.Passes (x ++ [c]) := fun _ s =>
  (led.quiet_of_search? h (stops_cons.mpr plain)).append
    (led.passes_plain (x := [c]) (by simpa using plain) _ s)

theorem passes_word (dead : p.DeadAt c) (word : ∀ d ∈ w, Text.isWord d = true)
    (blank : ∀ d ∈ g, Text.isBlank d = true) (plain : Text.isWord c = false) : p.Passes (w ++ (g ++ [c])) := by
  intro before s
  have mark : ∀ d ∈ g ++ [c], Text.isWord d = false := fun d hd => by
    rcases List.mem_append.mp hd with hd | hd
    · exact Text.isWord_of_isBlank (blank d hd)
    · rwa [List.mem_singleton.mp hd]
  refine (led.begins.quiet_of_word word ?_).append (led.passes_plain mark _ s)
  have refused := dead before w g s word blank
  rwa [List.append_assoc, List.singleton_append]

end LedBy

theorem passes_solid (words : k.ReadsWords) (q : Pattern)
    (same : ∀ before t, p.readings before t = (.boundary ++ (k ++ (.gap ++ q)) : Pattern).readings before t)
    (solid : ∀ d ∈ x, Text.isBlank d = false) (visible : Text.isBlank c = false) (plain : Text.isWord c = false) :
    p.Passes (x ++ [c]) := by
  intro before s
  refine quiet_of_forall fun u d v split => ?_
  rw [Refuses, same]
  refine refuses_boundary_append.mpr (.inr (refuses_append fun a r ha place => ?_))
  obtain ⟨nonempty, word⟩ := words _ _ a ha
  -- the keyword ends in front of the mark, so that no blank stands behind it
  obtain ⟨v', last⟩ : ∃ v', d :: v = v' ++ [c] := by
    rcases List.eq_nil_or_concat' (d :: v) with empty | ⟨v', e, last⟩
    · cases empty
    · rw [last, ← List.append_assoc] at split
      exact ⟨v', by rw [last, (List.cons.inj (List.append_inj_right' split rfl)).1]⟩
  rw [← List.cons_append, last, List.append_assoc, List.singleton_append] at place
  obtain ⟨z, rfl⟩ := front_of_stops ⟨r, place.symm⟩ word (stops_cons.mpr plain)
  have parts : x = u ++ (a.text ++ z) := by
    rw [last, ← List.append_assoc] at split
    exact List.append_inj_left' split rfl
  rw [List.append_assoc, List.append_cancel_left_eq] at place
  refine (refuses_of_stops (p := gap) rfl ?_).append
  rw [← place]
  cases z with
  | nil => exact stops_cons.mpr (by simpa [gap] using visible)
  | cons e z => exact stops_cons.mpr (by simpa [gap] using solid e (by simp [parts]))

theorem search?_wholeWord_eq_none (words : k.ReadsWords) (reads : k.nullable = false)
    (word : ∀ d ∈ w, Text.isWord d = true) (h : c ∈ w) (never : k.mayRead c = false) :
    (wholeWord k).search? w = none := by
  have led : (wholeWord k).LedBy k := ⟨words, fun _ _ none => none⟩
  have refuses : (wholeWord k).Refuses none (w ++ []) := by
    refine refuses_wholeWord_append.mpr (.inr (refuses_append fun a s ha split => ?_))
    rw [List.append_nil] at split
    obtain ⟨nonempty, text⟩ := words none _ a ha
    have inside : (lastOf none a.text).any Text.isWord = true := any_lastOf nonempty text
    cases s with
    | nil =>
        rw [List.append_nil] at split
        rw [split] at h
        exact absurd h (not_mem_of_never never ha)
    | cons d s => rw [Refuses, readings, if_neg (by simp [isEdge_inside inside (word d (by simp [split]))])]
  have quiet := led.begins.quiet_of_word word refuses
  exact find?_eq_none_of_quiet (by simp [wholeWord, nullable, reads]) quiet 0

end Pinout.Pattern
