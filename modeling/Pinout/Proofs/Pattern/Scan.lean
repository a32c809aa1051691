import Pinout.Proofs.Pattern.First
import Pinout.Text.Classes

/-! # Scans

A search passes over the places that refuse the pattern and goes on behind each first reading.
`Pattern.scan` is the search for all matches on readings; a stretch in which no reading begins is
quiet and drops out of every kind of search.
-/

namespace Pinout.Pattern

variable {p : Pattern} {before : Option Char} {s x y : Text} {kept : List (Nat × Text)}

/-- A place has no match and no reading, or a match that is its first reading. -/
theorem matchAt?_cases (p : Pattern) (here : Cursor) :
    (p.matchAt? here = none ∧ p.Refuses here.before here.rest) ∨
      ∃ found, p.matchAt? here = some found ∧ found.start = here ∧
        found.stop = here.skip found.reading.text.length ∧
        found.length = found.reading.text.length ∧
        (p.readings here.before here.rest).head? = some found.reading := by
  have first := map_matchAt? p here
  cases readings : p.readings here.before here.rest with
  | nil =>
      rw [readings, List.head?_nil, Option.map_none, Option.map_eq_none_iff] at first
      exact .inl ⟨first, readings⟩
  | cons r rest =>
      rw [readings, List.head?_cons, Option.map_some, Option.map_eq_some_iff] at first
      obtain ⟨found, matched, same⟩ := first
      obtain ⟨start, stop, rfl⟩ : found.start = here ∧ found.stop = here.skip r.text.length ∧
          found.reading = r := by simpa only [Prod.mk.injEq] using same
      refine .inr ⟨found, matched, start, stop, ?_, rfl⟩
      have front : found.reading.text <+: here.rest := front_of_mem (readings ▸ List.mem_cons_self)
      obtain ⟨before, position, rest⟩ := here
      obtain ⟨behind, split⟩ := front
      dsimp only at split
      rw [← split, Cursor.skip_append] at stop
      have started := congrArg Cursor.position start
      have stopped := congrArg Cursor.position stop
      dsimp only at started stopped
      rw [Span.length]
      omega

theorem Refuses.matchAt?_eq_none {position : Nat} (h : p.Refuses before s) : p.matchAt? ⟨before, position, s⟩ = none := by
  rcases matchAt?_cases p ⟨before, position, s⟩ with ⟨none, -⟩ | ⟨found, -, -, -, -, first⟩
  · exact none
  · cases (congrArg List.head? h).symm.trans first

/-- The first readings in a text, from left to right, none of them inside another. -/
def scan (p : Pattern) (before : Option Char) (t : Text) : List Reading :=
  go 0 before t
where
  /-- Passes over `skip` characters, the rest of the last reading, and goes on with the search. -/
  go : (skip : Nat) → Option Char → Text → List Reading
    | skip + 1, _, c :: rest => go skip (some c) rest
    | 0, before, c :: rest =>
      match (p.readings before (c :: rest)).head? with
      | some r => r :: go (r.text.length - 1) (some c) rest
      | none => go 0 (some c) rest
    | _ + 1, _, [] => []
    | 0, before, [] => (p.readings before []).head?.toList

theorem reading_findAll (p : Pattern) (t : Text) :
    (p.findAll t).map Match.reading = p.scan none t := by
  have go : ∀ skip before position, (findAll.go p skip before position t).map Match.reading =
      scan.go p skip before t := by
    induction t with
    | nil =>
        intro skip before position
        cases skip with
        | succ skip => rfl
        | zero =>
            rw [findAll.go, scan.go]
            rcases matchAt?_cases p ⟨before, position, []⟩ with ⟨none, refuses⟩ | ⟨found, some, -, -, -, first⟩
            · rw [none, refuses]
              rfl
            · rw [some, first]
              rfl
    | cons c t ih =>
        intro skip before position
        cases skip with
        | succ skip => exact ih skip _ _
        | zero =>
            rw [findAll.go, scan.go]
            rcases matchAt?_cases p ⟨before, position, c :: t⟩ with
              ⟨none, refuses⟩ | ⟨found, some, -, -, length, first⟩
            · rw [none, refuses]
              exact ih 0 _ _
            · rw [some, first]
              simp only [List.map_cons, ih, length]
  exact go 0 none 0

private theorem scan_go_append (p : Pattern) (before : Option Char) (x s : Text) :
    scan.go p x.length before (x ++ s) = scan.go p 0 (lastOf before x) s := by
  induction x generalizing before with
  | nil => rfl
  | cons c x ih => exact ih (some c)

theorem scan_of_takes (h : p.Takes before x kept s) (reads : x ≠ []) :
    p.scan before (x ++ s) = ⟨x, kept⟩ :: p.scan (lastOf before x) s := by
  cases x with
  | nil => exact absurd rfl reads
  | cons c x =>
      rw [scan, List.cons_append, scan.go]
      rw [Takes, List.cons_append] at h
      simp only [h, List.length_cons, Nat.add_sub_cancel, scan_go_append, lastOf_cons, scan]

theorem scan_nil (reads : p.nullable = false) : p.scan before [] = [] := by
  have refuses : p.Refuses before [] := refuses_of_stops reads stops_nil
  rw [scan, scan.go, refuses]
  rfl

/-- No reading begins in the stretch `x` between `before` and `s`. -/
def Quiet (p : Pattern) : (before : Option Char) → (x s : Text) → Prop
  | _, [], _ => True
  | before, c :: x, s => p.Refuses before (c :: (x ++ s)) ∧ Quiet p (some c) x s

@[simp] theorem quiet_nil (p : Pattern) (before : Option Char) (s : Text) : p.Quiet before [] s :=
  trivial

theorem quiet_append :
    p.Quiet before (x ++ y) s ↔ p.Quiet before x (y ++ s) ∧ p.Quiet (lastOf before x) y s := by
  induction x generalizing before with
  | nil => simp
  | cons c x ih => simp only [List.cons_append, Quiet, ih, List.append_assoc, lastOf_cons, and_assoc]

theorem Quiet.append (first : p.Quiet before x (y ++ s)) (second : p.Quiet (lastOf before x) y s) :
    p.Quiet before (x ++ y) s :=
  quiet_append.mpr ⟨first, second⟩

theorem Quiet.refuses {c : Char} (h : p.Quiet before (x ++ c :: y) s) :
    p.Refuses (lastOf before x) (c :: (y ++ s)) :=
  (quiet_append.mp h).2.1

theorem Quiet.imp {q : Pattern} (refuses : ∀ before t, q.Refuses before t → p.Refuses before t)
    (h : q.Quiet before x s) : p.Quiet before x s := by
  induction x generalizing before with
  | nil => trivial
  | cons c x ih => exact ⟨refuses before _ h.1, ih h.2⟩

theorem quiet_of_forall
    (h : ∀ y c z, x = y ++ c :: z → p.Refuses (lastOf before y) (c :: (z ++ s))) :
    p.Quiet before x s := by
  induction x generalizing before with
  | nil => trivial
  | cons c x ih => exact ⟨h [] c x rfl, ih fun y d z split => h (c :: y) d z (by rw [split]; rfl)⟩

theorem quiet_of_closed (reads : p.nullable = false) (h : ∀ c ∈ x, p.opens c = false) :
    p.Quiet before x s := by
  apply quiet_of_forall
  intro y c z split
  exact refuses_of_stops reads (stops_cons.mpr (h c (by simp [split])))

/-- The pattern reads something, and what it reads never begins with a blank. -/
structure SkipsBlanks (p : Pattern) : Prop where
  reads : p.nullable = false
  closed : ∀ c, Text.isBlank c = true → p.opens c = false

theorem SkipsBlanks.quiet (skips : p.SkipsBlanks) (blank : ∀ c ∈ x, Text.isBlank c = true) :
    p.Quiet before x s :=
  quiet_of_closed skips.reads fun c hc => skips.closed c (blank c hc)

theorem scan_of_quiet (h : p.Quiet before x s) :
    p.scan before (x ++ s) = p.scan (lastOf before x) s := by
  induction x generalizing before with
  | nil => rfl
  | cons c x ih =>
      have refuses := h.1
      simp only [Refuses] at refuses
      rw [List.cons_append, scan, scan.go, refuses]
      exact ih h.2

theorem scan_of_refuses {c : Char} (h : p.Refuses before (c :: s)) : p.scan before (c :: s) = p.scan (some c) s :=
  scan_of_quiet (x := [c]) ⟨h, trivial⟩

theorem scan_eq_nil_of_quiet (reads : p.nullable = false) (h : p.Quiet before x []) :
    p.scan before x = [] := by
  have ended := scan_of_quiet h
  rwa [List.append_nil, scan_nil reads] at ended

theorem findAll_eq_nil_of_quiet (reads : p.nullable = false) (h : p.Quiet none x []) : p.findAll x = [] := by
  have nothing := scan_eq_nil_of_quiet reads h
  rwa [← reading_findAll, List.map_eq_nil_iff] at nothing

theorem find?_of_takes (h : p.Takes before x kept s) (position : Nat) :
    ∃ found, p.find? ⟨before, position, x ++ s⟩ = some found ∧
      found.start = ⟨before, position, x ++ s⟩ ∧
      found.stop = ⟨lastOf before x, position + x.length, s⟩ ∧ found.reading = ⟨x, kept⟩ := by
  rcases matchAt?_cases p ⟨before, position, x ++ s⟩ with
    ⟨-, refuses⟩ | ⟨found, some, start, stop, -, first⟩
  · rw [Takes, refuses] at h
    cases h
  · have reading : found.reading = ⟨x, kept⟩ := Option.some.inj (first.symm.trans h)
    rw [reading, Cursor.skip_append] at stop
    refine ⟨found, ?_, start, stop, reading⟩
    rw [find?]
    cases h : x ++ s with
    | nil => rw [find?.go, ← h, some]
    | cons c rest => rw [find?.go, ← h, some]

theorem find?_of_not_refuses {t : Text} (h : ¬ p.Refuses before t) (position : Nat) :
    ∃ found, p.find? ⟨before, position, t⟩ = some found ∧ found.start = ⟨before, position, t⟩ := by
  rcases matchAt?_cases p ⟨before, position, t⟩ with ⟨-, refuses⟩ | ⟨found, some, start, -⟩
  · exact absurd refuses h
  · refine ⟨found, ?_, start⟩
    cases t with
    | nil => rw [find?, find?.go, some]
    | cons c rest => rw [find?, find?.go, some]

theorem find?_of_quiet (h : p.Quiet before x s) (position : Nat) :
    p.find? ⟨before, position, x ++ s⟩ = p.find? ⟨lastOf before x, position + x.length, s⟩ := by
  induction x generalizing before position with
  | nil => rfl
  | cons c x ih =>
      rcases matchAt?_cases p ⟨before, position, c :: (x ++ s)⟩ with ⟨none, -⟩ | ⟨found, -, -, -, -, first⟩
      · have behind := ih h.2 (position + 1)
        rw [Nat.add_right_comm] at behind
        rw [List.cons_append, find?, find?.go, none]
        exact behind
      · have refuses := h.1
        simp only [Refuses] at refuses
        rw [refuses] at first
        cases first

theorem position_le_of_find? {here : Cursor} {found : Match} (h : p.find? here = some found) :
    here.position ≤ found.start.position := by
  obtain ⟨before, position, t⟩ := here
  have started : ∀ here found, p.matchAt? here = some found → here.position ≤ found.start.position := by
    intro here found matched
    rcases matchAt?_cases p here with ⟨none, -⟩ | ⟨found', some, start, -⟩
    · rw [none] at matched
      cases matched
    · rw [some, Option.some.injEq] at matched
      have same : here = found.start := by rw [← matched, start]
      exact Nat.le_of_eq (congrArg Cursor.position same)
  induction t generalizing before position with
  | nil => exact started _ found h
  | cons c t ih =>
      rw [find?, find?.go] at h
      split at h
      · rename_i matched
        obtain rfl := Option.some.inj h
        exact started _ _ matched
      · exact Nat.le_of_succ_le (ih _ _ h)

theorem find?_eq_none_of_quiet (reads : p.nullable = false) (h : p.Quiet before x [])
    (position : Nat) : p.find? ⟨before, position, x⟩ = none := by
  have ended := find?_of_quiet h position
  rw [List.append_nil] at ended
  rw [ended, find?, find?.go]
  rcases matchAt?_cases p ⟨lastOf before x, position + x.length, []⟩ with
    ⟨none, -⟩ | ⟨found, -, -, -, -, first⟩
  · exact none
  · have refuses : p.Refuses (lastOf before x) [] := refuses_of_stops reads stops_nil
    rw [refuses] at first
    cases first

theorem replaceAll_of_quiet (replacement : Text → Text) (h : p.Quiet none x []) :
    p.replaceAll replacement x = x := by
  have go : ∀ before position, p.Quiet before x [] →
      replaceAll.go p replacement 0 before position x = x := by
    clear h
    induction x with
    | nil =>
        intro before position _
        rfl
    | cons c x ih =>
        intro before position h
        rw [replaceAll.go]
        rcases matchAt?_cases p ⟨before, position, c :: x⟩ with ⟨none, -⟩ | ⟨found, -, -, -, -, first⟩
        · rw [none, ih _ _ h.2]
        · have refuses := h.1
          simp only [Refuses, List.append_nil] at refuses
          rw [refuses] at first
          cases first
  exact go none 0 h

end Pinout.Pattern
