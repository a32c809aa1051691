import Pinout.Proofs.Pattern.Words

/-! # Locality

What a pattern reads depends on the text it reads and on whether word characters stand in front of
that text and behind it. So a text in which a pattern finds nothing on its own is quiet wherever it
stands, as long as no reading that begins in it runs out of it.
-/

namespace Pinout.Pattern

variable {p q : Pattern} {before before' : Option Char} {s s' t x : Text} {accepts : Char → Bool}

/-- Whether a character may occur in what a pattern reads. -/
def mayRead : Pattern → Char → Bool
  | empty, _ | boundary, _ => false
  | one accepts, c | many accepts, c | few accepts, c => accepts c
  | sequence first second, c | choice first second, c => first.mayRead c || second.mayRead c
  | repeated body, c => body.mayRead c
  | group _ body, c => body.mayRead c

@[simp] theorem mayRead_append {c : Char} : (p ++ q).mayRead c = (p.mayRead c || q.mayRead c) := rfl

@[simp] theorem mayRead_optional {c : Char} : (optional p).mayRead c = p.mayRead c := Bool.or_false _

theorem mayRead_exactly {k : Text} {c : Char} (absent : c ∉ k) : (exactly k).mayRead c = false := by
  induction k with
  | nil => rfl
  | cons d k ih =>
      obtain ⟨differs, absent⟩ := not_or.mp (mt List.mem_cons.mpr absent)
      simpa [exactly, char, mayRead, differs] using ih absent

theorem mayRead_of_mem {a : Reading} (h : a ∈ p.readings before t) : ∀ c ∈ a.text, p.mayRead c = true := by
  replace h := reads_of_mem h
  induction h with
  | empty | boundary | done => exact fun _ hc => absurd hc List.not_mem_nil
  | one accepted => exact List.forall_mem_singleton.mpr accepted
  | many run | few run => exact run
  | sequence _ _ first second =>
      refine List.forall_mem_append.mpr ⟨fun c hc => ?_, fun c hc => ?_⟩
      · exact Bool.or_eq_true_iff.mpr (.inl (first c hc))
      · exact Bool.or_eq_true_iff.mpr (.inr (second c hc))
  | left _ ih => exact fun c hc => Bool.or_eq_true_iff.mpr (.inl (ih c hc))
  | right _ ih => exact fun c hc => Bool.or_eq_true_iff.mpr (.inr (ih c hc))
  | again _ _ _ first second => exact List.forall_mem_append.mpr ⟨first, second⟩
  | group _ _ ih => exact ih

theorem not_mem_of_never {a : Reading} {c : Char} (never : p.mayRead c = false) (h : a ∈ p.readings before t) :
    c ∉ a.text := by
  intro hc
  rw [mayRead_of_mem h c hc] at never
  cases never

theorem front_of_stopped {a : Reading} (stops : Stops p.mayRead s) (h : a ∈ p.readings before (x ++ s)) :
    a.text <+: x :=
  front_of_stops (front_of_mem h) (mayRead_of_mem h) stops

theorem any_lastOf_congr (front : before.any accepts = before'.any accepts) (x : Text) :
    (lastOf before x).any accepts = (lastOf before' x).any accepts := by
  cases x with
  | nil => exact front
  | cons c x => rfl

/-- Whether a pattern asks what stands in front of a place. -/
def looksBehind : Pattern → Bool
  | empty | one _ | many _ | few _ => false
  | boundary => true
  | sequence first second | choice first second => first.looksBehind || second.looksBehind
  | repeated body | group _ body => body.looksBehind

/-- A reading comes about in the same way between other texts, if these are alike to a pattern that looks for them. -/
theorem Reads.elsewhere {a : Reading} (h : p.Reads before t a) :
    ∀ {before' : Option Char} (x : Text), t = a.text ++ (x ++ s) →
      (p.looksBehind = true → before.any Text.isWord = before'.any Text.isWord ∧
        s.head?.any Text.isWord = s'.head?.any Text.isWord) →
      p.Reads before' (a.text ++ (x ++ s')) a := by
  induction h with
  | empty => exact fun _ _ _ => .empty
  | done => exact fun _ _ _ => .done
  | one accepted => exact fun _ _ _ => .one accepted
  | boundary edge =>
      rintro before' x rfl alike
      obtain ⟨front, back⟩ := alike rfl
      refine .boundary (edge ▸ ?_)
      cases x with
      | nil => simp [Reading.nothing, isEdge, back, front]
      | cons c x => simp [Reading.nothing, isEdge, front]
  | many run => exact fun _ _ _ => .many run
  | few run => exact fun _ _ _ => .few run
  | left _ ih => exact fun x split alike => .left (ih x split fun looks => alike (Bool.or_eq_true_iff.mpr (.inl looks)))
  | right _ ih => exact fun x split alike => .right (ih x split fun looks => alike (Bool.or_eq_true_iff.mpr (.inr looks)))
  | @sequence _ _ _ _ a b _ _ first second =>
      intro before' x split alike
      rw [Reading.append, List.append_assoc] at split ⊢
      obtain rfl := List.append_cancel_left split
      have first := first (b.text ++ x) (by rw [List.append_assoc]) fun looks => alike (Bool.or_eq_true_iff.mpr (.inl looks))
      rw [List.append_assoc] at first
      exact .sequence first (second x rfl fun looks =>
        (alike (Bool.or_eq_true_iff.mpr (.inr looks))).imp_left fun front => any_lastOf_congr front a.text)
  | @again _ _ _ a b _ moved _ first second =>
      intro before' x split alike
      rw [Reading.append, List.append_assoc] at split ⊢
      obtain rfl := List.append_cancel_left split
      have first := first (b.text ++ x) (by rw [List.append_assoc]) alike
      rw [List.append_assoc] at first
      exact .again first moved (second x rfl fun looks =>
        (alike looks).imp_left fun front => any_lastOf_congr front a.text)
  | group index _ ih => exact fun x split alike => .group index (ih x split alike)

theorem mem_readings_local (back : s.head?.any Text.isWord = s'.head?.any Text.isWord)
    {before before' : Option Char} {x : Text} {a : Reading} (h : a ∈ p.readings before (x ++ s))
    (inside : a.text <+: x) (front : before.any Text.isWord = before'.any Text.isWord) :
    a ∈ p.readings before' (x ++ s') := by
  obtain ⟨z, rfl⟩ := inside
  rw [List.append_assoc, mem_readings_iff] at h ⊢
  exact h.elsewhere z rfl fun _ => ⟨front, back⟩

/-- A quiet stretch is quiet between other texts, unless a reading runs out of it and of what follows it
in either place. -/
theorem Quiet.elsewhere_append {w : Text} (h : p.Quiet before x (w ++ s))
    (front : before.any Text.isWord = before'.any Text.isWord)
    (back : s.head?.any Text.isWord = s'.head?.any Text.isWord)
    (inside : ∀ y z, x = y ++ z → z ≠ [] → ∀ before a, a ∈ p.readings before (z ++ (w ++ s')) →
      a.text <+: z ++ w) : p.Quiet before' x (w ++ s') := by
  induction x generalizing before before' with
  | nil => trivial
  | cons c x ih =>
      refine ⟨refuses_iff.mpr fun a ha => ?_, ih h.2 rfl fun y z split => inside (c :: y) z ?_⟩
      · have there : a ∈ p.readings before ((c :: x ++ w) ++ s) := by
          refine mem_readings_local back.symm ?_ (inside [] (c :: x) rfl (by simp) _ a ha) front.symm
          rwa [List.append_assoc]
        rw [List.append_assoc] at there
        exact refuses_iff.mp h.1 a there
      · rw [split, List.cons_append]

theorem Quiet.elsewhere (h : p.Quiet before x s) (front : before.any Text.isWord = before'.any Text.isWord)
    (back : s.head?.any Text.isWord = s'.head?.any Text.isWord)
    (inside : ∀ y z, x = y ++ z → z ≠ [] → ∀ before a, a ∈ p.readings before (z ++ s') → a.text <+: z) :
    p.Quiet before' x s' :=
  Quiet.elsewhere_append (w := []) h front back fun y z split more before a ha => by
    rw [List.append_nil]
    exact inside y z split more before a ha

/-- Where readings begin words, what stands in front of a stretch makes no difference. -/
theorem BeginsWord.quiet_behind (begins : p.BeginsWord) (h : p.Quiet none x s) (before : Option Char) :
    p.Quiet before x s := by
  cases x with
  | nil => trivial
  | cons c x =>
      refine ⟨?_, h.2⟩
      cases inside : before.any Text.isWord with
      | true => exact begins _ _ (.inl inside)
      | false =>
          refine refuses_iff.mpr fun a ha => refuses_iff.mp h.1 a ?_
          have front : a.text <+: c :: (x ++ s) := front_of_mem ha
          rw [← List.append_nil (c :: (x ++ s))] at ha ⊢
          exact mem_readings_local rfl ha front inside

theorem front_of_last {c : Char} {y : Text} (front : y ++ [c] <+: x ++ s) (absent : c ∉ s) :
    y ++ [c] <+: x := by
  rcases List.prefix_or_prefix_of_prefix front (List.prefix_append x s) with short | ⟨w, split⟩
  · exact short
  · rw [← split, List.prefix_append_right_inj] at front
    cases last : w.getLast? with
    | none =>
        rw [List.getLast?_eq_none_iff] at last
        have same : y ++ [c] = x := by rw [← split, last, List.append_nil]
        exact same ▸ List.prefix_rfl
    | some d =>
        have same : d = c := by
          have := congrArg List.getLast? split
          simpa [List.getLast?_append, last] using this
        exact absurd (front.subset (same ▸ List.mem_of_getLast? last)) absent

/-- A stretch is quiet for a pattern that has to read a character which is not there, up to one that it
never reads. -/
theorem quiet_of_missing {c d : Char} {y : Text}
    (needs : ∀ before t, ∀ a ∈ p.readings before t, c ∈ a.text) (never : p.mayRead d = false)
    (absent : c ∉ x ++ y) : p.Quiet before x (y ++ d :: s) := by
  apply quiet_of_forall
  intro u e v split
  refine refuses_iff.mpr fun a ha => ?_
  rw [← List.append_assoc, ← List.cons_append] at ha
  have inside : a.text <+: e :: (v ++ y) := front_of_stopped (stops_cons.mpr never) ha
  have found := inside.subset (needs _ _ a ha)
  apply absent
  rw [split, List.append_assoc]
  exact List.mem_append_right u found

theorem quiet_of_absent {c : Char} (needs : ∀ before t, ∀ a ∈ p.readings before t, c ∈ a.text) (absent : c ∉ x) :
    p.Quiet before x [] := by
  refine quiet_of_forall fun u e v split => refuses_iff.mpr fun a ha => absent ?_
  rw [split]
  have inside := (front_of_mem ha).subset (needs _ _ a ha)
  rw [List.append_nil] at inside
  exact List.mem_append_right u inside

theorem quiet_of_find?_eq_none {position : Nat} (h : p.find? ⟨before, position, x⟩ = none) :
    p.Quiet before x [] := by
  induction x generalizing before position with
  | nil => trivial
  | cons c x ih =>
      rw [find?, find?.go] at h
      rcases matchAt?_cases p ⟨before, position, c :: x⟩ with ⟨none, refuses⟩ | ⟨found, some, -⟩
      · rw [none] at h
        rw [Quiet, List.append_nil]
        exact ⟨refuses, ih h⟩
      · rw [some] at h
        cases h

theorem exists_quiet_of_find? {position : Nat} {found : Match} (reads : p.nullable = false)
    (h : p.find? ⟨before, position, x⟩ = some found) :
    ∃ u v, x = u ++ v ∧ p.Quiet before u v ∧ ¬ p.Refuses (lastOf before u) v := by
  induction x generalizing before position with
  | nil =>
      have none := find?_eq_none_of_quiet reads (p.quiet_nil before []) position
      rw [h] at none
      cases none
  | cons c x ih =>
      by_cases refuses : p.Refuses before (c :: x)
      · have quiet : p.Quiet before [c] x := ⟨refuses, trivial⟩
        have behind := find?_of_quiet quiet position
        rw [List.singleton_append, h] at behind
        obtain ⟨u, v, rfl, silent, reading⟩ := ih behind.symm
        exact ⟨c :: u, v, rfl, ⟨refuses, silent⟩, reading⟩
      · exact ⟨[], c :: x, rfl, trivial, refuses⟩

theorem exists_quiet (reads : p.nullable = false) (before : Option Char) (t : Text) :
    ∃ x y, t = x ++ y ∧ p.Quiet before x y ∧ (y = [] ∨ ¬ p.Refuses (lastOf before x) y) := by
  cases search : p.find? ⟨before, 0, t⟩ with
  | none => exact ⟨t, [], (List.append_nil t).symm, quiet_of_find?_eq_none search, .inl rfl⟩
  | some found =>
      obtain ⟨x, y, split, quiet, ends⟩ := exists_quiet_of_find? reads search
      exact ⟨x, y, split, quiet, .inr ends⟩

theorem exists_takes (h : ¬ p.Refuses before t) : ∃ x kept s, t = x ++ s ∧ p.Takes before x kept s := by
  obtain ⟨a, rest, readings⟩ := List.exists_cons_of_ne_nil h
  obtain ⟨s, rfl⟩ := front_of_mem (readings ▸ List.mem_cons_self : a ∈ p.readings before t)
  exact ⟨a.text, a.kept, s, rfl, by rw [Takes, readings]; rfl⟩

end Pinout.Pattern
