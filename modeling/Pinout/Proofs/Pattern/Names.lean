import Pinout.Proofs.Pattern.Found
import Pinout.Proofs.Text.Places

/-! # Names that are whole words

A name that a pattern keeps begins and ends where a word does. Some patterns ask for this by an edge; in
the others it follows from what stands next to the name, or from greedy reading and a search that takes
the first place it can.
-/

namespace Pinout.Pattern

open Text (WordsIn)

variable {p q lead rest : Pattern} {before : Option Char} {c : Char} {s t w x : Text} {kept : List (Nat × Text)}
  {accepts : Char → Bool} {index : Nat} {a : Reading}

/-- No word runs across the place between `before` and `t`. -/
def Apart (before : Option Char) (t : Text) : Prop :=
  before.any Text.isWord = true → Stops Text.isWord t

theorem apart_of_front (h : before.any Text.isWord = false) : Apart before t := fun inside => by
  rw [h] at inside
  cases inside

theorem Apart.front (h : Apart before (c :: t)) (word : Text.isWord c = true) : before.any Text.isWord = false := by
  cases inside : before.any Text.isWord with
  | false => rfl
  | true =>
      have plain := stops_cons.mp (h inside)
      rw [word] at plain
      cases plain

/-- No reading ends within a word. -/
def EndsApart (p : Pattern) : Prop :=
  ∀ before a s, a ∈ p.readings before (a.text ++ s) → Apart (lastOf before a.text) s

/-- No reading that begins where a word may begin ends within a word. -/
def KeepsApart (p : Pattern) : Prop :=
  ∀ before a s, a ∈ p.readings before (a.text ++ s) → Apart before (a.text ++ s) → Apart (lastOf before a.text) s

theorem EndsApart.keepsApart (h : p.EndsApart) : p.KeepsApart := fun before a s ha _ => h before a s ha

theorem endsApart_boundary : boundary.EndsApart := by
  intro before a s ha
  obtain ⟨edge, rfl⟩ := mem_boundary.mp ha
  intro inside
  cases s with
  | nil => exact stops_nil
  | cons c s =>
      rw [stops_cons]
      change isEdge before (c :: s) = true at edge
      change before.any Text.isWord = true at inside
      simpa [isEdge, inside] using edge

theorem endsApart_atLeastOne (plain : ∀ c, accepts c = true → Text.isWord c = false) :
    (atLeastOne accepts).EndsApart := by
  intro before a s ha
  obtain ⟨nonempty, all, -⟩ := mem_atLeastOne ha
  obtain ⟨c, hc, last⟩ := lastOf_mem before nonempty
  refine apart_of_front ?_
  rw [last]
  exact plain c (all c hc)

theorem endsApart_gap : gap.EndsApart :=
  endsApart_atLeastOne fun _ => Text.isWord_of_isBlank

theorem endsApart_char (plain : Text.isWord c = false) : (char c).EndsApart := by
  intro before a s ha
  obtain ⟨-, rfl⟩ := mem_char.mp ha
  exact apart_of_front plain

theorem keepsApart_empty : empty.KeepsApart := by
  intro before a s ha apart
  obtain rfl := List.mem_singleton.mp ha
  exact apart

theorem keepsApart_blanks : blanks.KeepsApart := by
  intro before a s ha apart
  obtain ⟨-, all, -⟩ := mem_many.mp ha
  cases read : a.text with
  | nil =>
      rw [read] at apart
      exact apart
  | cons d x =>
      rw [read] at all
      obtain ⟨c, hc, last⟩ := lastOf_mem before (List.cons_ne_nil d x)
      refine apart_of_front ?_
      rw [last]
      exact Text.isWord_of_isBlank (all c hc)

private theorem exists_parts (h : a ∈ (p ++ q).readings before (a.text ++ s)) :
    ∃ first second : Reading, a = first.append second ∧
      first ∈ p.readings before (first.text ++ (second.text ++ s)) ∧
      second ∈ q.readings (lastOf before first.text) (second.text ++ s) := by
  obtain ⟨first, hfirst, r, split, second, hsecond, rfl⟩ := exists_of_mem_append h
  rw [Reading.append, List.append_assoc, List.append_cancel_left_eq] at split
  subst split
  exact ⟨first, second, rfl, by rwa [Reading.append, List.append_assoc] at hfirst, hsecond⟩

theorem EndsApart.append_left (second : q.EndsApart) : (p ++ q).EndsApart := by
  intro before a s ha
  obtain ⟨x, y, rfl, -, hy⟩ := exists_parts ha
  rw [Reading.append, lastOf_append]
  exact second _ y s hy

theorem EndsApart.append (first : p.EndsApart) (second : q.KeepsApart) : (p ++ q).EndsApart := by
  intro before a s ha
  obtain ⟨x, y, rfl, hx, hy⟩ := exists_parts ha
  rw [Reading.append, lastOf_append]
  exact second _ y s hy (first before x _ hx)

theorem KeepsApart.optional (h : p.KeepsApart) : (optional p).KeepsApart := by
  intro before a s ha
  rcases List.mem_append.mp ha with read | nothing
  · exact h before a s read
  · exact keepsApart_empty before a s nothing

theorem EndsApart.group (h : p.EndsApart) (index : Nat) : (group index p).EndsApart := by
  intro before a s ha
  obtain ⟨inner, hinner, rfl⟩ := List.mem_map.mp ha
  exact h before inner s hinner

theorem EndsApart.repeated (h : p.EndsApart) : (repeated p).KeepsApart := by
  intro before a s ha apart
  replace ha := reads_of_mem ha
  generalize split : a.text ++ s = t at ha
  generalize same : Pattern.repeated p = steps at ha
  induction ha generalizing s with
  | empty | one | boundary | sequence | left | right | many | few | group => cases same
  | done =>
      cases split
      exact apart
  | @again p before r first second hfirst _ _ _ ih =>
      cases same
      rw [Reading.append, List.append_assoc, List.append_cancel_left_eq] at split
      rw [Reading.append, lastOf_append]
      exact ih s (split ▸ h before first r hfirst.mem) split rfl

/-- What a sequence takes begins with the first reading of its first part behind which the second one is read. -/
private theorem Takes.parts (h : (p ++ q).Takes before x kept s) :
    ∃ skipped a behind y more, p.readings before (x ++ s) = skipped ++ a :: behind ∧
      (∀ b ∈ skipped, q.Refuses (lastOf before b.text) ((x ++ s).drop b.text.length)) ∧
      x = a.text ++ y ∧ kept = more ++ a.kept ∧ q.Takes (lastOf before a.text) y more s := by
  rw [Takes, readings_append, List.head?_flatMap] at h
  obtain ⟨skipped, a, behind, split, first, none⟩ := List.findSome?_eq_some_iff.mp h
  rw [List.head?_map, Option.map_eq_some_iff] at first
  obtain ⟨b, hb, same⟩ := first
  obtain ⟨rfl, rfl⟩ := Reading.mk.inj same
  have hfront : a.text <+: a.text ++ b.text ++ s := front_of_mem (split ▸ List.mem_append_right _ List.mem_cons_self)
  rw [List.append_assoc, List.drop_left] at hb
  refine ⟨skipped, a, behind, b.text, b.kept, split, fun r hr => ?_, rfl, rfl, hb⟩
  exact List.map_eq_nil_iff.mp (List.head?_eq_none_iff.mp (none r hr))

theorem Takes.exists_append (h : (p ++ q).Takes before x kept s) :
    ∃ a y more, x = a.text ++ y ∧ kept = more ++ a.kept ∧ a ∈ p.readings before (a.text ++ (y ++ s)) ∧
      q.Takes (lastOf before a.text) y more s := by
  obtain ⟨skipped, a, behind, y, more, split, -, rfl, same, second⟩ := h.parts
  refine ⟨a, y, more, rfl, same, ?_, second⟩
  rw [← List.append_assoc, split]
  exact List.mem_append_right _ List.mem_cons_self

theorem Takes.exists_append_of_reads (reads : ∀ before t, ¬ q.Refuses before t) (h : (p ++ q).Takes before x kept s) :
    ∃ (a : Reading) (y : Text) (more : List (Nat × Text)), x = a.text ++ y ∧
      p.Takes before a.text a.kept (y ++ s) ∧ q.Takes (lastOf before a.text) y more s := by
  obtain ⟨skipped, a, behind, y, more, split, refused, rfl, -, second⟩ := h.parts
  obtain rfl : skipped = [] := List.eq_nil_iff_forall_not_mem.mpr fun b hb => reads _ _ (refused b hb)
  refine ⟨a, y, more, rfl, ?_, second⟩
  rw [Takes, ← List.append_assoc, split]
  rfl

theorem Takes.of_optional (h : (Pattern.optional p).Takes before x kept s) :
    p.Takes before x kept s ∨ x = [] := by
  rw [Takes, Pattern.optional] at h
  change (p.readings before (x ++ s) ++ [Reading.nothing]).head? = _ at h
  cases first : (p.readings before (x ++ s)).head? with
  | none =>
      rw [List.head?_append, first] at h
      exact .inr (congrArg Reading.text (Option.some.inj h)).symm
  | some a =>
      rw [List.head?_append, first] at h
      exact .inl (first.trans h)

theorem Takes.of_group (h : (Pattern.group index p).Takes before x kept s) :
    ∃ more, p.Takes before x more s ∧ kept = (index, x) :: more := by
  rw [Takes, readings_group, List.head?_map, Option.map_eq_some_iff] at h
  obtain ⟨a, first, same⟩ := h
  obtain ⟨rfl, rfl⟩ := Reading.mk.inj same
  exact ⟨a.kept, first, rfl⟩

/-- A greedy class is read as far as it goes. -/
theorem stops_of_takes_atLeastOne (h : (atLeastOne accepts).Takes before x kept s) : Stops accepts s := by
  obtain ⟨nonempty, all, -⟩ := mem_atLeastOne h.mem
  obtain ⟨y, r, rfl, all', stops⟩ := exists_run accepts s
  have longest : (atLeastOne accepts).Takes before (x ++ y) [] r :=
    takes_atLeastOne (by simp [nonempty]) (List.forall_mem_append.mpr ⟨all, all'⟩) stops
  rw [Takes, List.append_assoc, h] at longest
  have same := congrArg Reading.text (Option.some.inj longest)
  obtain rfl : y = [] := by simpa using same
  exact stops

/-- What the pattern takes ends where no word runs on. -/
def EndsWord (p : Pattern) : Prop :=
  ∀ before x kept s, p.Takes before x kept s → Stops Text.isWord s

theorem endsWord_word : word.EndsWord := fun _ _ _ _ => stops_of_takes_atLeastOne

theorem EndsWord.group (h : p.EndsWord) (index : Nat) : (group index p).EndsWord := by
  intro before x kept s taken
  obtain ⟨more, first, -⟩ := taken.of_group
  exact h before x more s first

theorem EndsWord.append (h : q.EndsWord) (p : Pattern) : (p ++ q).EndsWord := by
  intro before x kept s taken
  obtain ⟨a, y, more, -, -, -, second⟩ := taken.exists_append
  exact h _ y more s second

/-- The first reading does not end within a word. -/
def TakesApart (p : Pattern) : Prop :=
  ∀ before x kept s, p.Takes before x kept s → Apart (lastOf before x) s

theorem EndsApart.takesApart (h : p.EndsApart) : p.TakesApart := fun before x kept s takes =>
  h before ⟨x, kept⟩ s takes.mem

theorem takesApart_group_atLeastOne (index : Nat) (word : ∀ c, Text.isWord c = true → accepts c = true) :
    (p ++ group index (atLeastOne accepts)).TakesApart := by
  intro before x kept s takes _ c hc
  obtain ⟨a, y, more, -, -, -, second⟩ := takes.exists_append
  obtain ⟨_, run, -⟩ := second.of_group
  by_contra inside
  have plain := stops_of_takes_atLeastOne run c hc
  rw [word c (by simpa using inside)] at plain
  cases plain

theorem TakesApart.optional (first : p.TakesApart) (second : q.TakesApart) : (p ++ optional q).TakesApart := by
  intro before x kept s takes
  obtain ⟨a, y, more, rfl, firstTakes, secondTakes⟩ := takes.exists_append_of_reads not_refuses_optional
  rw [lastOf_append]
  rcases secondTakes.of_optional with read | rfl
  · exact second _ y more s read
  · exact first before a.text a.kept s firstTakes

def HoldsWord (before : Option Char) (x s w : Text) : Prop :=
  ∃ u v, x = u ++ (w ++ v) ∧ w.IsName ∧ (lastOf before u).any Text.isWord = false ∧ Stops Text.isWord (v ++ s)

/-- What the pattern keeps under a number is a whole word of the text, whatever is searched and wherever the search
goes on. -/
structure NamesWords (p : Pattern) (index : Nat) : Prop where
  reads : p.nullable = false
  /-- If nothing can be read at a place in a word, nothing can be read in the rest of the word. -/
  starts : ∀ before c s, p.Refuses before (c :: s) → Apart (some c) s ∨ p.Refuses (some c) s
  /-- No reading begins in a word within which another one ends. -/
  ends : ∀ before x kept s, p.Takes before x kept s → Apart (lastOf before x) s ∨ p.Refuses (lastOf before x) s
  /-- What is kept is a whole word. -/
  whole : ∀ before x kept s, p.Takes before x kept s → Apart before (x ++ s) →
    HoldsWord before x s (Reading.group ⟨x, kept⟩ index)

private theorem front_of_name (keeps : lead.KeepsApart) (read : a ∈ lead.readings before (a.text ++ (w ++ s)))
    (name : w.IsName) (apart : Apart before (a.text ++ (w ++ s))) : (lastOf before a.text).any Text.isWord = false := by
  obtain ⟨c, w, rfl⟩ := List.exists_cons_of_ne_nil name.nonempty
  exact (keeps before a _ read apart).front (name.word c List.mem_cons_self)

theorem holdsWord_last (keeps : lead.KeepsApart) (takes : (lead ++ group index word).Takes before x kept s)
    (apart : Apart before (x ++ s)) : HoldsWord before x s (Reading.group ⟨x, kept⟩ index) := by
  obtain ⟨a, w, more, rfl, rfl, first, second⟩ := takes.exists_append
  obtain ⟨more, run, rfl⟩ := second.of_group
  obtain ⟨nonempty, word, -⟩ := mem_atLeastOne run.mem
  rw [List.append_assoc] at apart
  have named : Reading.group ⟨a.text ++ w, ((index, w) :: more) ++ a.kept⟩ index = w := by
    simp [Reading.group, Reading.group?]
  rw [named]
  refine ⟨a.text, [], by simp, ⟨nonempty, word⟩, front_of_name keeps first ⟨nonempty, word⟩ apart, ?_⟩
  exact stops_of_takes_atLeastOne run

theorem lookup_eq_none_of_groupBodies (none : p.groupBodies index = []) (h : a ∈ p.readings before t) :
    a.kept.lookup index = Option.none := by
  cases kept : a.kept.lookup index with
  | none => rfl
  | some x =>
      obtain ⟨body, hbody, -⟩ := readByOne_of_mem_kept h (mem_kept_of_group? kept)
      rw [none] at hbody
      cases hbody

theorem holdsWord_inside (keeps : lead.KeepsApart) (reads : rest.nullable = false)
    (closed : ∀ c, Text.isWord c = true → rest.opens c = false) (once : rest.groupBodies index = [])
    (h : ⟨x, kept⟩ ∈ (lead ++ (group index word ++ rest)).readings before (x ++ s)) (apart : Apart before (x ++ s)) :
    HoldsWord before x s (Reading.group ⟨x, kept⟩ index) := by
  obtain ⟨a, behind, same, first, hbehind⟩ := exists_parts h
  obtain ⟨b, r, rfl, second, third⟩ := exists_parts hbehind
  obtain ⟨run, hrun, rfl⟩ := List.mem_map.mp second
  obtain ⟨nonempty, word, plain⟩ := mem_atLeastOne hrun
  obtain ⟨rfl, rfl⟩ := Reading.mk.inj same
  have named : (a.append ((Reading.keep index run).append r)).group index = run.text := by
    simp [Reading.append, Reading.keep, Reading.group, Reading.group?, List.lookup_append,
      lookup_eq_none_of_groupBodies once third]
  have back : Stops Text.isWord (r.text ++ s) := by
    intro c hc
    by_contra inside
    refine refuses_iff.mp (refuses_of_stops reads fun d hd => ?_) r third
    rw [← Option.mem_unique hc hd]
    exact closed c (by simpa using inside)
  change HoldsWord before (a.text ++ (run.text ++ r.text)) s ((a.append ((Reading.keep index run).append r)).group index)
  simp only [Reading.append, Reading.keep, List.append_assoc] at first apart
  rw [named]
  exact ⟨a.text, r.text, rfl, ⟨nonempty, word⟩, front_of_name keeps first ⟨nonempty, word⟩ apart, back⟩

theorem opens_blanks_char {mark : Char} (plain : Text.isWord mark = false) (inside : Text.isWord c = true) :
    (blanks ++ (char mark ++ q)).opens c = false := by
  have other : c ≠ mark := Text.ne_of_isWord inside plain
  simp [blanks, char, opens, nullable, Text.not_isBlank_of_isWord inside, other]

theorem BeginsWord.apart_or_refuses (begins : p.BeginsWord) (before : Option Char) (t : Text) :
    Apart before t ∨ p.Refuses before t := by
  cases inside : before.any Text.isWord with
  | true => exact .inr (begins before t (.inl inside))
  | false => exact .inl (apart_of_front inside)

theorem BeginsWord.namesWords_last (begins : p.BeginsWord) (same : p = lead ++ group index word)
    (keeps : lead.KeepsApart) : p.NamesWords index where
  reads := by
    rw [same]
    exact Bool.and_false _
  starts _ _ _ _ := begins.apart_or_refuses _ _
  ends _ _ _ _ _ := begins.apart_or_refuses _ _
  whole _ _ _ _ takes apart := holdsWord_last keeps (same ▸ takes) apart

theorem BeginsWord.namesWords_inside (begins : p.BeginsWord)
    (same : ∀ before t, p.readings before t = (lead ++ (group index word ++ rest)).readings before t)
    (keeps : lead.KeepsApart) (reads : p.nullable = false) (goesOn : rest.nullable = false)
    (closed : ∀ c, Text.isWord c = true → rest.opens c = false) (once : rest.groupBodies index = []) :
    p.NamesWords index where
  reads := reads
  starts _ _ _ _ := begins.apart_or_refuses _ _
  ends _ _ _ _ _ := begins.apart_or_refuses _ _
  whole before x kept s takes apart := by
    have read := takes.mem
    rw [same] at read
    exact holdsWord_inside keeps goesOn closed once read apart

/-- A name that could be read from within a word could be read from the front of the word. -/
theorem refuses_inside_word (h : (group index word ++ rest).Refuses before (c :: s)) (inside : Text.isWord c = true) :
    (group index word ++ rest).Refuses (some c) s := by
  refine refuses_group_append.mpr (refuses_append fun a r ha split => ?_)
  obtain ⟨nonempty, all, plain⟩ := mem_atLeastOne ha
  -- The shorter name together with the character in front of it.
  have longer : (⟨c :: a.text, []⟩ : Reading) ∈ word.readings before (c :: a.text ++ r) := by
    have first : (⟨[c], []⟩ : Reading) ∈ (one Text.isWord).readings before ([c] ++ (a.text ++ r)) :=
      mem_one.mpr ⟨c, _, rfl, inside, rfl⟩
    have second : (⟨a.text, []⟩ : Reading) ∈ (many Text.isWord).readings (some c) (a.text ++ r) :=
      mem_many.mpr ⟨List.prefix_append _ _, all, rfl⟩
    exact mem_append_of_mem first second
  subst split
  exact Refuses.behind (a := ⟨c :: a.text, []⟩) (refuses_group_append.mp h) longer

theorem namesWords_first (same : ∀ before t, p.readings before t = (group index word ++ rest).readings before t)
    (ends : p.TakesApart) (reads : p.nullable = false) (goesOn : rest.nullable = false)
    (closed : ∀ c, Text.isWord c = true → rest.opens c = false) (once : rest.groupBodies index = []) :
    p.NamesWords index where
  reads := reads
  starts before c s refuses := by
    cases inside : Text.isWord c with
    | false => exact .inl (apart_of_front inside)
    | true =>
        rw [Refuses, same] at refuses ⊢
        exact .inr (refuses_inside_word refuses inside)
  ends before x kept s takes := .inl (ends before x kept s takes)
  whole before x kept s takes apart := by
    have read := takes.mem
    rw [same, ← readings_empty_append] at read
    exact holdsWord_inside keepsApart_empty goesOn closed once read apart

namespace NamesWords

variable (names : p.NamesWords index)
include names

/-- One match after the other has its name behind the last one. -/
theorem wordsIn_scan (start : Apart before t ∨ p.Refuses before t) :
    WordsIn before t ((p.scan before t).map (·.group index)) := by
  -- The search never stands within a word where something is read: each step of it keeps `start`.
  induction before, t using search_induction names.reads with
  | nil before =>
      rw [scan_nil names.reads]
      exact .nil
  | refused before c s refuses ih =>
      have passed : p.scan before ([c] ++ s) = p.scan (some c) s := scan_of_quiet ⟨refuses, trivial⟩
      rw [List.singleton_append] at passed
      rw [passed]
      exact .prepend (x := [c]) (ih (names.starts before c s refuses))
  | taken before x kept s nonempty takes ih =>
      have apart := start.resolve_right takes.not_refuses
      obtain ⟨u, v, split, name, front, back⟩ := names.whole before x kept s takes apart
      have more := ih (names.ends before x kept s takes)
      rw [scan_of_takes takes nonempty, List.map_cons]
      generalize Reading.group ⟨x, kept⟩ index = w at *
      generalize p.scan (lastOf before x) s = behind at *
      subst split
      rw [← List.append_assoc, lastOf_append] at more
      rw [List.append_assoc, List.append_assoc]
      exact .cons name front back (.prepend more)

theorem wordsIn_findAll (t : Text) : WordsIn none t ((p.findAll t).map (·.group index)) := by
  have words : WordsIn none t _ := names.wordsIn_scan (.inl (apart_of_front rfl))
  rw [← reading_findAll, List.map_map] at words
  have same : (fun found : Match => found.group index) = (fun r : Reading => r.group index) ∘ Match.reading :=
    funext fun found => (Match.group_reading found index).symm
  rwa [same]

theorem exists_standsAt {found : Match} (h : p.search? t = some found) :
    ∃ offset, Text.StandsAt t offset (found.group index) := by
  obtain ⟨u, s, rfl, quiet, takes, -⟩ := exists_of_find? names.reads h
  have words : WordsIn none (u ++ (found.reading.text ++ s)) _ := names.wordsIn_scan (.inl (apart_of_front rfl))
  rw [scan_of_quiet quiet, scan_of_takes takes (takes.ne_nil names.reads), List.map_cons] at words
  obtain ⟨places, same, stands, -⟩ := words.standInOrder
  cases places with
  | nil => cases same
  | cons place places =>
      rw [List.map_cons, List.cons.injEq] at same
      have first := stands place List.mem_cons_self
      rw [same.1] at first
      refine ⟨place.1, ?_⟩
      rwa [← Match.group_reading]

end NamesWords

end Pinout.Pattern
