import Pinout.Proofs.Pattern.Scan
import Pinout.Proofs.Text.Characters

/-! # Runs of characters

How the common patterns read a run of word characters or of blanks that cannot be extended. A keyword
that has to end at a boundary reads the whole run or nothing of it, and a greedy class gives nothing
back to a pattern that the class itself cannot open.
-/

namespace Pinout.Pattern

variable {p q : Pattern} {before : Option Char} {k s t w x y : Text} {accepts : Char → Bool}
  {kept : List (Nat × Text)}

theorem run_unique (split : w ++ s = x ++ y) (all : ∀ c ∈ w, accepts c = true)
    (stops : Stops accepts s) (all' : ∀ c ∈ x, accepts c = true) (stops' : Stops accepts y) :
    x = w ∧ y = s := by
  induction w generalizing x with
  | nil =>
      cases x with
      | nil => exact ⟨rfl, split.symm⟩
      | cons c x =>
          rw [List.nil_append] at split
          have := stops c (by simp [split])
          rw [all' c (by simp)] at this
          cases this
  | cons c w ih =>
      cases x with
      | nil =>
          rw [List.nil_append] at split
          have := stops' c (by simp [← split])
          rw [all c (by simp)] at this
          cases this
      | cons d x =>
          simp only [List.cons_append, List.cons.injEq] at split
          obtain ⟨rfl, split⟩ := split
          obtain ⟨rfl, rfl⟩ := ih split (fun e he => all e (by simp [he]))
            (fun e he => all' e (by simp [he]))
          exact ⟨rfl, rfl⟩

theorem front_of_stops (front : t <+: x ++ s) (all : ∀ c ∈ t, accepts c = true)
    (stops : Stops accepts s) : t <+: x := by
  induction x generalizing t with
  | nil =>
      cases t with
      | nil => exact List.nil_prefix
      | cons c t =>
          obtain ⟨rest, rfl⟩ := front
          have closed := stops c rfl
          rw [all c (by simp)] at closed
          cases closed
  | cons d x ih =>
      cases t with
      | nil => exact List.nil_prefix
      | cons c t =>
          rw [List.cons_append, List.cons_prefix_cons] at front
          obtain ⟨rfl, front⟩ := front
          exact List.cons_prefix_cons.mpr ⟨rfl, ih front fun e he => all e (by simp [he])⟩

theorem exists_run (accepts : Char → Bool) (t : Text) :
    ∃ x s, t = x ++ s ∧ (∀ c ∈ x, accepts c = true) ∧ Stops accepts s := by
  exact ⟨t.takeWhile accepts, t.dropWhile accepts, List.takeWhile_append_dropWhile.symm,
    fun c hc => List.all_eq_true.mp List.all_takeWhile c hc, stops_dropWhile accepts t⟩

theorem stops_gap (blank : ∀ c ∈ x, Text.isBlank c = true) (ends : x ≠ [] ∨ Stops Text.isWord s) :
    Stops Text.isWord (x ++ s) := by
  cases x with
  | nil => exact ends.resolve_left (absurd rfl)
  | cons c x => exact stops_cons.mpr (Text.isWord_of_isBlank (blank c (by simp)))

theorem any_lastOf (h : x ≠ []) (all : ∀ c ∈ x, accepts c = true) :
    (lastOf before x).any accepts = true := by
  obtain ⟨c, hc, same⟩ := lastOf_mem before h
  rw [same]
  exact all c hc

theorem any_lastOf_eq_false (front : before.any accepts = false)
    (none : ∀ c ∈ x, accepts c = false) : (lastOf before x).any accepts = false := by
  cases x with
  | nil => exact front
  | cons c x =>
      obtain ⟨d, hd, same⟩ := lastOf_mem before (List.cons_ne_nil c x)
      rw [same]
      exact none d hd

theorem isEdge_of_word (word : before.any Text.isWord = true) (stops : Stops Text.isWord t) :
    isEdge before t = true := by
  cases t with
  | nil => simp [isEdge, word]
  | cons c t => simp [isEdge, word, stops_cons.mp stops]

theorem isEdge_inside {c : Char} (word : before.any Text.isWord = true) (h : Text.isWord c = true) :
    isEdge before (c :: t) = false := by
  simp [isEdge, word, h]

theorem stops_of_isEdge (word : before.any Text.isWord = true) (edge : isEdge before t = true) :
    Stops Text.isWord t := by
  cases t with
  | nil => exact stops_nil
  | cons c t =>
      refine stops_cons.mpr (Bool.eq_false_iff.mpr fun inside => ?_)
      rw [isEdge_inside word inside] at edge
      cases edge

theorem isEdge_front {c : Char} (word : before.any Text.isWord = false) (h : Text.isWord c = true) :
    isEdge before (c :: t) = true := by
  simp [isEdge, word, h]

/-- Reads one character for each test. -/
def eachOf (tests : List (Char → Bool)) : Pattern :=
  tests.foldr (fun accepts rest => one accepts ++ rest) empty

theorem exactly_eq_eachOf (t : Text) : exactly t = eachOf (t.map fun c => (· == c)) := by
  rw [exactly, eachOf, List.foldr_map]
  rfl

theorem keyword_eq_eachOf (t : Text) : keyword t = eachOf (t.map isVariant) := by
  rw [keyword, eachOf, List.foldr_map]

theorem takes_eachOf {tests : List (Char → Bool)}
    (h : List.Forall₂ (fun test c => test c = true) tests w) : (eachOf tests).Takes before w [] s := by
  induction h generalizing before with
  | nil => rfl
  | cons accepted _ ih => exact Takes.append (.one accepted) ih

theorem mem_eachOf {tests : List (Char → Bool)} {a : Reading}
    (h : a ∈ (eachOf tests).readings before t) :
    a.kept = [] ∧ List.Forall₂ (fun test c => test c = true) tests a.text := by
  induction tests generalizing before t a with
  | nil =>
      obtain rfl := List.mem_singleton.mp h
      exact ⟨rfl, .nil⟩
  | cons accepts tests ih =>
      obtain ⟨first, hfirst, second, hsecond, rfl⟩ := mem_append.mp h
      obtain ⟨c, t, rfl, accepted, rfl⟩ := mem_one.mp hfirst
      obtain ⟨kept, rest⟩ := ih hsecond
      exact ⟨by simp [Reading.append, kept], .cons accepted rest⟩

theorem takes_exactly : (exactly w).Takes before w [] s := by
  rw [exactly_eq_eachOf]
  apply takes_eachOf
  rw [List.forall₂_map_left_iff]
  exact List.forall₂_same.mpr fun c _ => beq_self_eq_true c

theorem mem_exactly {a : Reading} (h : a ∈ (exactly k).readings before t) : a = ⟨k, []⟩ := by
  rw [exactly_eq_eachOf] at h
  obtain ⟨kept, text⟩ := mem_eachOf h
  rw [List.forall₂_map_left_iff] at text
  have same : k = a.text := by
    rw [← List.forall₂_eq_eq_eq]
    exact text.imp fun _ _ h => (beq_iff_eq.mp h).symm
  obtain ⟨text, kept'⟩ := a
  obtain rfl := same
  obtain rfl := kept
  rfl

theorem refuses_exactly (h : ¬ k <+: t) : (exactly k).Refuses before t := by
  refine refuses_iff.mpr fun a ha => h ?_
  rw [mem_exactly ha] at ha
  exact front_of_mem ha

theorem not_isPrefix_pair {a b c : Char} (alone : ¬ [a, b] <:+: x) (stops : Stops (· == b) s)
    (split : x = y ++ c :: t) : ¬ [a, b] <+: c :: (t ++ s) := by
  rw [List.cons_prefix_cons]
  rintro ⟨rfl, front⟩
  cases t with
  | nil =>
      obtain ⟨rest, rfl⟩ := front
      have := stops b rfl
      simp at this
  | cons d t =>
      rw [List.cons_append, List.cons_prefix_cons] at front
      obtain ⟨rfl, -⟩ := front
      exact alone ⟨y, t, by simp [split]⟩

theorem takes_keyword (h : Spells k w) : (keyword k).Takes before w [] s := by
  rw [keyword_eq_eachOf]
  exact takes_eachOf (List.forall₂_map_left_iff.mpr h)

theorem mem_keyword {a : Reading} (h : a ∈ (keyword k).readings before t) :
    a.kept = [] ∧ Spells k a.text := by
  rw [keyword_eq_eachOf] at h
  exact (mem_eachOf h).imp_right List.forall₂_map_left_iff.mp

theorem takes_char {c : Char} : (char c).Takes before [c] [] s :=
  .one (beq_self_eq_true c)

@[simp] theorem opens_keyword_cons {letter c : Char} :
    (keyword (letter :: k)).opens c = isVariant letter c := Bool.or_false _

@[simp] theorem nullable_keyword_cons {letter : Char} : (keyword (letter :: k)).nullable = false := rfl

theorem mem_char {c : Char} {a : Reading} :
    a ∈ (char c).readings before t ↔ (∃ s, t = c :: s) ∧ a = ⟨[c], []⟩ := by
  simp [char, mem_one]

theorem Spells.word (key : ∀ letter ∈ k, isKeyLetter letter = true) (h : Spells k w) :
    ∀ c ∈ w, Text.isWord c = true := by
  induction h with
  | nil => simp
  | cons accepted _ ih =>
      intro c hc
      rcases List.mem_cons.mp hc with rfl | hc
      · exact isWord_of_isVariant (key _ (by simp)) accepted
      · exact ih (fun letter hl => key letter (by simp [hl])) c hc

theorem Spells.ne_nil (h : Spells k w) (nonempty : k ≠ []) : w ≠ [] := by
  cases h with
  | nil => exact absurd rfl nonempty
  | cons => simp

theorem refuses_keyword (key : ∀ letter ∈ k, isKeyLetter letter = true) (nonempty : k ≠ [])
    (stops : Stops Text.isWord t) : (keyword k).Refuses before t := by
  refine refuses_iff.mpr fun a ha => ?_
  have spelled := (mem_keyword ha).2
  obtain ⟨c, w, text⟩ := List.exists_cons_of_ne_nil (spelled.ne_nil nonempty)
  have front := front_of_mem ha
  have word := spelled.word key
  rw [text] at front word
  obtain ⟨rest, rfl⟩ := front
  have plain := stops c rfl
  rw [word c (by simp)] at plain
  cases plain

theorem refuses_keyword_of_short (key : ∀ letter ∈ k, isKeyLetter letter = true)
    (stops : Stops Text.isWord t) (short : w.length < k.length) : (keyword k).Refuses before (w ++ t) := by
  refine refuses_iff.mpr fun a ha => ?_
  have spelled := (mem_keyword ha).2
  have inside := front_of_stops (front_of_mem ha) (spelled.word key) stops
  have length := inside.length_le
  rw [← spelled.length_eq] at length
  omega

private theorem head?_flatMap_stretches {α : Type} {f : Text → List α} {a : α}
    (all : ∀ c ∈ x, accepts c = true) (dead : ∀ y z, x = y ++ z → z ≠ [] → f y = [])
    (first : (f x).head? = some a) : ((stretches accepts (x ++ s)).flatMap f).head? = some a := by
  induction x generalizing f with
  | nil =>
      have nothing : ∃ rest, stretches accepts s = [] :: rest := by
        cases s with
        | nil => exact ⟨[], rfl⟩
        | cons c s => exact ⟨_, rfl⟩
      obtain ⟨rest, h⟩ := nothing
      rw [List.nil_append, h, List.flatMap_cons, List.head?_append, first, Option.some_or]
  | cons c x ih =>
      have further := ih (f := fun y => f (c :: y)) (fun d hd => all d (by simp [hd]))
        (fun y z split => dead (c :: y) z (by rw [split, List.cons_append])) first
      rw [List.cons_append, stretches, if_pos (all c (by simp)), List.flatMap_cons,
        dead [] (c :: x) rfl (List.cons_ne_nil c x), List.nil_append, List.flatMap_map]
      exact further

/-- Where the stretches of a class are tried in turn, the shortest one first, the first one behind which what comes
next can be read is taken. -/
private theorem Takes.stretch_append (keeps : Text → List (Nat × Text))
    (same : p.readings before (y ++ x ++ s) = (stretches accepts (y ++ x ++ s)).map fun z => ⟨z, keeps z⟩)
    (all : ∀ c ∈ y, accepts c = true)
    (refuses : ∀ u v, y = u ++ v → v ≠ [] → q.Refuses (lastOf before u) (v ++ (x ++ s)))
    (h : q.Takes (lastOf before y) x kept s) : (p ++ q).Takes before (y ++ x) (kept ++ keeps y) s := by
  rw [Takes, readings_append, same, List.flatMap_map, List.append_assoc]
  obtain ⟨rest, first⟩ := List.head?_eq_some_iff.mp h
  refine head?_flatMap_stretches all (fun u v split more => ?_) ?_
  · have refused := refuses u v split more
    rw [split, List.append_assoc, List.drop_left, refused, List.map_nil]
  · rw [List.drop_left, first]
    rfl

/-- A lazy class is read up to the first place where what comes next can be read. -/
theorem Takes.few {index : Nat} (all : ∀ c ∈ y, accepts c = true)
    (refuses : ∀ u v, y = u ++ v → v ≠ [] → q.Refuses (lastOf before u) (v ++ (x ++ s)))
    (h : q.Takes (lastOf before y) x kept s) :
    (Pattern.group index (Pattern.few accepts) ++ q).Takes before (y ++ x) (kept ++ [(index, y)]) s := by
  refine Takes.stretch_append (fun z => [(index, z)]) ?_ all refuses h
  exact List.map_map

theorem Takes.few_append (all : ∀ c ∈ y, accepts c = true)
    (refuses : ∀ u v, y = u ++ v → v ≠ [] → q.Refuses (lastOf before u) (v ++ (x ++ s)))
    (h : q.Takes (lastOf before y) x kept s) : (Pattern.few accepts ++ q).Takes before (y ++ x) kept s := by
  rw [← List.append_nil kept]
  exact Takes.stretch_append (fun _ => []) rfl all refuses h

theorem takes_blanks (all : ∀ c ∈ x, Text.isBlank c = true) (stops : Stops Text.isBlank s) :
    blanks.Takes before x [] s :=
  .many all stops

theorem takes_atLeastOne (nonempty : x ≠ []) (all : ∀ c ∈ x, accepts c = true)
    (stops : Stops accepts s) : (atLeastOne accepts).Takes before x [] s := by
  cases x with
  | nil => exact absurd rfl nonempty
  | cons c x =>
      exact Takes.append (.one (all c (by simp))) (.many (fun d hd => all d (by simp [hd])) stops)

theorem mem_atLeastOne {a : Reading} (h : a ∈ (atLeastOne accepts).readings before t) :
    a.text ≠ [] ∧ (∀ c ∈ a.text, accepts c = true) ∧ a.kept = [] := by
  obtain ⟨first, hfirst, _, -, rest, hrest, rfl⟩ := exists_of_mem_append h
  obtain ⟨c, _, -, accepted, rfl⟩ := mem_one.mp hfirst
  obtain ⟨-, all, kept⟩ := mem_many.mp hrest
  refine ⟨List.cons_ne_nil c _, fun d hd => ?_, by simp [Reading.append, kept]⟩
  rcases List.mem_cons.mp hd with rfl | hd
  · exact accepted
  · exact all d hd

theorem Takes.gap (h : p.Takes before w kept (x ++ s)) (nonempty : x ≠ [])
    (all : ∀ c ∈ x, Text.isBlank c = true) (stops : Stops Text.isBlank s) :
    (p ++ Pattern.gap).Takes before (w ++ x) kept s :=
  h.append (takes_atLeastOne nonempty all stops)

theorem Takes.blanks (h : p.Takes before w kept (x ++ s)) (all : ∀ c ∈ x, Text.isBlank c = true)
    (stops : Stops Text.isBlank s) : (p ++ Pattern.blanks).Takes before (w ++ x) kept s :=
  h.append (takes_blanks all stops)

theorem Takes.edge (h : p.Takes before w kept s) (nonempty : w ≠ [])
    (word : ∀ c ∈ w, Text.isWord c = true) (stops : Stops Text.isWord s) :
    (p ++ Pattern.boundary).Takes before w kept s := by
  have inside : (lastOf before w).any Text.isWord = true := any_lastOf nonempty word
  have edge := isEdge_of_word inside stops
  have both := Takes.append (y := []) h (.boundary edge)
  rwa [List.append_nil] at both

/-- A greedy class gives nothing back to a pattern that it cannot open. -/
theorem refuses_many_run (all : ∀ c ∈ x, accepts c = true) (stops : Stops accepts s)
    (reads : q.nullable = false) (closed : ∀ c, accepts c = true → q.opens c = false)
    (h : q.Refuses (lastOf before x) s) : (many accepts ++ q).Refuses before (x ++ s) := by
  apply refuses_many_append
  intro y rest split all'
  by_cases stops' : Stops accepts rest
  · obtain ⟨rfl, rfl⟩ := run_unique split all stops all' stops'
    exact h
  · apply refuses_of_stops reads
    intro c hc
    apply closed
    cases accepted : accepts c with
    | true => rfl
    | false =>
        refine absurd (fun d hd => ?_) stops'
        rw [← Option.mem_unique hc hd, accepted]

theorem refuses_atLeastOne_run (all : ∀ c ∈ x, accepts c = true) (stops : Stops accepts s)
    (reads : q.nullable = false) (closed : ∀ c, accepts c = true → q.opens c = false)
    (h : q.Refuses (lastOf before x) s) : (atLeastOne accepts ++ q).Refuses before (x ++ s) := by
  rw [atLeastOne, refuses_append_assoc]
  cases x with
  | nil => exact (refuses_of_stops (p := one accepts) rfl stops).append
  | cons c x =>
      apply refuses_append
      intro a rest ha split
      simp only [List.cons_append, readings, all c (by simp), if_true, List.mem_singleton] at ha
      subst ha
      simp only [List.cons_append, List.nil_append, List.cons.injEq, true_and] at split
      subst split
      exact refuses_many_run (fun d hd => all d (by simp [hd])) stops reads closed h

/-- A pattern that reads only word characters and is followed by one that no word character opens
reads a whole run of word characters or nothing. -/
theorem refuses_word_append (word : ∀ c ∈ w, Text.isWord c = true) (stops : Stops Text.isWord s)
    (run : ∀ a ∈ p.readings before (w ++ s), ∀ c ∈ a.text, Text.isWord c = true)
    (ends : ∀ a ∈ p.readings before (w ++ s), ∀ c y, Text.isWord c = true →
      q.Refuses (lastOf before a.text) (c :: y))
    (whole : ∀ a ∈ p.readings before (w ++ s), a.text = w → q.Refuses (lastOf before w) s) :
    (p ++ q).Refuses before (w ++ s) := by
  apply refuses_append
  intro a rest ha split
  by_cases stops' : Stops Text.isWord rest
  · obtain ⟨same, rfl⟩ := run_unique split word stops (run a ha) stops'
    rw [same]
    exact whole a ha same
  · cases rest with
    | nil => exact absurd stops_nil stops'
    | cons c rest =>
        rw [stops_cons, Bool.not_eq_false] at stops'
        exact ends a ha c rest stops'

theorem refuses_keyword_append (key : ∀ letter ∈ k, isKeyLetter letter = true) (nonempty : k ≠ [])
    (word : ∀ c ∈ w, Text.isWord c = true) (stops : Stops Text.isWord s)
    (h : Spells k w → q.Refuses (lastOf before w) s) :
    (keyword k ++ (boundary ++ q)).Refuses before (w ++ s) := by
  refine refuses_word_append word stops (fun a ha => (mem_keyword ha).2.word key) ?_ ?_
  · intro a ha c y hc
    have spelled := (mem_keyword ha).2
    exact refuses_boundary_append.mpr
      (.inl (isEdge_inside (any_lastOf (spelled.ne_nil nonempty) (spelled.word key)) hc))
  · intro a ha same
    exact refuses_boundary_append.mpr (.inr (h (same ▸ (mem_keyword ha).2)))

theorem refuses_exactly_gap_append (key : ∀ c ∈ k, Text.isWord c = true)
    (word : ∀ c ∈ w, Text.isWord c = true) (stops : Stops Text.isWord s)
    (h : k = w → (gap ++ q).Refuses (lastOf before w) s) :
    (exactly k ++ (gap ++ q)).Refuses before (w ++ s) := by
  refine refuses_word_append word stops ?_ ?_ ?_
  · intro a ha
    rw [mem_exactly ha]
    exact key
  · intro a _ c y hc
    refine (refuses_of_stops rfl (stops_cons.mpr ?_)).append
    rw [gap, opens_atLeastOne]
    exact Text.not_isBlank_of_isWord hc
  · intro a ha same
    rw [mem_exactly ha] at same
    exact h same

/-- The pattern reads nothing inside a word or in front of something that is no word. -/
def BeginsWord (p : Pattern) : Prop :=
  ∀ before t, before.any Text.isWord = true ∨ Stops Text.isWord t → p.Refuses before t

theorem beginsWord_of_boundary (same : ∀ before t, p.readings before t = (boundary ++ q).readings before t)
    (reads : q.nullable = false) (closed : ∀ c, q.opens c = true → Text.isWord c = true) : p.BeginsWord := by
  intro before t inside
  rw [Refuses, same]
  by_cases stops : Stops Text.isWord t
  · refine refuses_boundary_append.mpr (.inr (refuses_of_stops reads fun c hc => ?_))
    cases opened : q.opens c with
    | false => rfl
    | true =>
        rw [← closed c opened]
        exact stops c hc
  · have word := inside.resolve_right stops
    cases t with
    | nil => exact absurd stops_nil stops
    | cons c t =>
        rw [stops_cons, Bool.not_eq_false] at stops
        exact refuses_boundary_append.mpr (.inl (isEdge_inside word stops))

namespace BeginsWord

theorem quiet_of_no_word (begins : p.BeginsWord) (h : ∀ c ∈ x, Text.isWord c = false) :
    p.Quiet before x s := by
  apply quiet_of_forall
  intro y c z split
  exact begins _ _ (.inr (stops_cons.mpr (h c (by simp [split]))))

theorem quiet_of_word (begins : p.BeginsWord) (word : ∀ c ∈ w, Text.isWord c = true)
    (front : p.Refuses before (w ++ s)) : p.Quiet before w s := by
  cases w with
  | nil => trivial
  | cons c w =>
      refine ⟨front, quiet_of_forall fun y d z split => ?_⟩
      have inside : (lastOf before (c :: y)).any Text.isWord = true := any_lastOf (by simp) fun e he =>
        word e (by simp only [split, ← List.cons_append, List.mem_append, he, true_or])
      exact begins _ _ (.inl inside)

end BeginsWord

end Pinout.Pattern
