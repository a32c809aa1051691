import Mathlib.Data.List.Basic
import Pinout.Proofs.Pattern.Reading

/-! # First readings and refusals

A pattern takes a text if that text is its first reading, and it refuses a place if it has no reading
there. What holds of every reading is proved by induction on how the reading comes about. A sequence
takes what its parts take one after the other; what has to be given up on the way shows as a refusal of
the rest. Which characters a pattern can begin with decides most refusals.
-/

namespace Pinout.Pattern

variable {p q r : Pattern} {before : Option Char} {s t x y : Text} {kept more : List (Nat × Text)}
  {accepts : Char → Bool}

/-- Between `before` and `x ++ s`, the pattern first reads `x` and keeps `kept`. -/
def Takes (p : Pattern) (before : Option Char) (x : Text) (kept : List (Nat × Text)) (s : Text) :
    Prop :=
  (p.readings before (x ++ s)).head? = some ⟨x, kept⟩

def Refuses (p : Pattern) (before : Option Char) (t : Text) : Prop :=
  p.readings before t = []

def Stops (accepts : Char → Bool) (t : Text) : Prop :=
  ∀ c ∈ t.head?, accepts c = false

theorem stops_nil : Stops accepts [] := by
  intro c h
  cases h

theorem stops_cons {c : Char} : Stops accepts (c :: t) ↔ accepts c = false := by
  simp [Stops]

theorem Stops.any (h : Stops accepts t) : t.head?.any accepts = false := by
  cases t with
  | nil => rfl
  | cons c t => exact stops_cons.mp h

theorem stops_take (h : Stops accepts t) (n : Nat) : Stops accepts (t.take n) := by
  cases t with
  | nil => rwa [List.take_nil]
  | cons c t =>
      cases n with
      | zero => exact stops_nil
      | succ n => exact stops_cons.mpr (stops_cons.mp h)

theorem stops_append (nonempty : x ≠ []) (h : Stops accepts x) : Stops accepts (x ++ s) := by
  intro c hc
  rw [List.head?_append_of_ne_nil _ nonempty] at hc
  exact h c hc

theorem stops_dropWhile (accepts : Char → Bool) (t : Text) : Stops accepts (t.dropWhile accepts) := by
  intro c hc
  have first := List.head?_dropWhile_not accepts t
  rw [Option.mem_def.mp hc] at first
  simpa using first

theorem readings_append (p q : Pattern) (before : Option Char) (t : Text) :
    (p ++ q).readings before t = (p.readings before t).flatMap fun r =>
      (q.readings (lastOf before r.text) (t.drop r.text.length)).map r.append := rfl

theorem readings_orElse (p q : Pattern) (before : Option Char) (t : Text) :
    (p <|> q).readings before t = p.readings before t ++ q.readings before t := rfl

theorem readings_group (index : Nat) (p : Pattern) (before : Option Char) (t : Text) :
    (group index p).readings before t = (p.readings before t).map (Reading.keep index) := rfl

theorem readings_empty_append (p : Pattern) (before : Option Char) (t : Text) :
    (empty ++ p).readings before t = p.readings before t := by
  simp only [readings_append, readings, List.flatMap_singleton, Reading.nothing_append, List.map_id]
  rfl

theorem readings_orElse_append (p q r : Pattern) (before : Option Char) (t : Text) :
    ((p <|> q) ++ r).readings before t = (p ++ r).readings before t ++ (q ++ r).readings before t := by
  simp only [readings_append, readings_orElse, List.flatMap_append]

theorem readings_optional_append (p q : Pattern) (before : Option Char) (t : Text) :
    (optional p ++ q).readings before t = (p ++ q).readings before t ++ q.readings before t := by
  rw [← readings_empty_append q]
  exact readings_orElse_append p empty q before t

theorem readings_append_assoc (p q r : Pattern) (before : Option Char) (t : Text) :
    ((p ++ q) ++ r).readings before t = (p ++ (q ++ r)).readings before t := by
  simp only [readings_append, List.flatMap_assoc, List.flatMap_map, List.map_flatMap, List.map_map]
  refine List.flatMap_congr fun a _ => List.flatMap_congr fun b _ => ?_
  have assoc : (a.append b).append = a.append ∘ b.append := funext (Reading.append_assoc a b)
  rw [assoc]
  simp only [Reading.append, lastOf_append, List.length_append, List.drop_drop]

theorem readings_boundary_append (p : Pattern) (before : Option Char) (t : Text) :
    (boundary ++ p).readings before t = if isEdge before t then p.readings before t else [] := by
  rw [readings_append, readings]
  split
  · simp only [List.flatMap_singleton, Reading.nothing_append, List.map_id]
    rfl
  · rfl

theorem mem_stretches : x ∈ stretches accepts t ↔ x <+: t ∧ ∀ c ∈ x, accepts c = true := by
  induction t generalizing x with
  | nil =>
      simp only [stretches, List.mem_singleton, List.prefix_nil]
      constructor
      · rintro rfl
        simp
      · exact And.left
  | cons c t ih =>
      cases x with
      | nil => simp [stretches]
      | cons d x =>
          simp only [stretches, List.mem_cons, reduceCtorEq, false_or, List.cons_prefix_cons]
          cases h : accepts c with
          | false =>
              simp only [Bool.false_eq_true, if_false, List.not_mem_nil, false_iff]
              rintro ⟨⟨rfl, -⟩, all⟩
              rw [all d (.inl rfl)] at h
              cases h
          | true =>
              simp only [if_true, List.mem_map, List.cons.injEq]
              constructor
              · rintro ⟨y, hy, rfl, rfl⟩
                refine ⟨⟨rfl, (ih.mp hy).1⟩, ?_⟩
                rintro e (rfl | he)
                · exact h
                · exact (ih.mp hy).2 e he
              · rintro ⟨⟨rfl, front⟩, all⟩
                exact ⟨x, ih.mpr ⟨front, fun e he => all e (.inr he)⟩, rfl, rfl⟩

theorem mem_append {result : Reading} :
    result ∈ (p ++ q).readings before t ↔ ∃ a ∈ p.readings before t,
      ∃ b ∈ q.readings (lastOf before a.text) (t.drop a.text.length), a.append b = result := by
  simp only [readings_append, List.mem_flatMap, List.mem_map]

theorem mem_append_of_mem {a b : Reading} (first : a ∈ p.readings before (a.text ++ s))
    (second : b ∈ q.readings (lastOf before a.text) s) :
    a.append b ∈ (p ++ q).readings before (a.text ++ s) := by
  refine mem_append.mpr ⟨a, first, b, ?_, rfl⟩
  rwa [List.drop_left]

theorem mem_many {a : Reading} :
    a ∈ (many accepts).readings before t ↔
      a.text <+: t ∧ (∀ c ∈ a.text, accepts c = true) ∧ a.kept = [] := by
  simp only [readings, List.mem_map, List.mem_reverse, mem_stretches]
  constructor
  · rintro ⟨x, ⟨front, all⟩, rfl⟩
    exact ⟨front, all, rfl⟩
  · rintro ⟨front, all, kept⟩
    obtain ⟨text, _⟩ := a
    cases kept
    exact ⟨text, ⟨front, all⟩, rfl⟩

theorem mem_boundary {a : Reading} :
    a ∈ boundary.readings before t ↔ isEdge before t = true ∧ a = .nothing := by
  rw [readings]
  split <;> simp_all

theorem mem_one {a : Reading} :
    a ∈ (one accepts).readings before t ↔ ∃ c s, t = c :: s ∧ accepts c = true ∧ a = ⟨[c], []⟩ := by
  cases t with
  | nil => simp [readings]
  | cons c t =>
      simp only [readings, List.cons.injEq]
      split
      · rename_i accepted
        rw [List.mem_singleton]
        constructor
        · rintro rfl
          exact ⟨c, t, ⟨rfl, rfl⟩, accepted, rfl⟩
        · rintro ⟨_, _, ⟨rfl, rfl⟩, -, rfl⟩
          rfl
      · rename_i refused
        simp only [List.not_mem_nil, false_iff]
        rintro ⟨_, _, ⟨rfl, rfl⟩, accepted, -⟩
        exact refused accepted

theorem mem_repeatedly_succ {step : Option Char → Text → List Reading} {rounds : Nat} {result : Reading} :
    result ∈ repeatedly step (rounds + 1) before t ↔
      (∃ a ∈ step before t, a.text ≠ [] ∧
        ∃ b ∈ repeatedly step rounds (lastOf before a.text) (t.drop a.text.length), a.append b = result) ∨
      result = .nothing := by
  simp only [repeatedly, List.mem_append, List.mem_flatMap, List.mem_singleton, List.mem_ite_nil_right, List.mem_map,
    List.length_pos_iff]

/-- How a reading comes about, with one constructor for each way through a pattern. -/
inductive Reads : Pattern → Option Char → Text → Reading → Prop
  | empty {before : Option Char} {t : Text} : Reads empty before t .nothing
  | one {accepts : Char → Bool} {before : Option Char} {c : Char} {s : Text} (accepted : accepts c = true) :
      Reads (one accepts) before (c :: s) ⟨[c], []⟩
  | boundary {before : Option Char} {t : Text} (edge : isEdge before t = true) :
      Reads boundary before t .nothing
  | sequence {p q : Pattern} {before : Option Char} {s : Text} {a b : Reading}
      (first : Reads p before (a.text ++ s) a) (second : Reads q (lastOf before a.text) s b) :
      Reads (sequence p q) before (a.text ++ s) (a.append b)
  | left {p q : Pattern} {before : Option Char} {t : Text} {a : Reading} (read : Reads p before t a) :
      Reads (choice p q) before t a
  | right {p q : Pattern} {before : Option Char} {t : Text} {a : Reading} (read : Reads q before t a) :
      Reads (choice p q) before t a
  | many {accepts : Char → Bool} {before : Option Char} {x s : Text} (run : ∀ c ∈ x, accepts c = true) :
      Reads (many accepts) before (x ++ s) ⟨x, []⟩
  | few {accepts : Char → Bool} {before : Option Char} {x s : Text} (run : ∀ c ∈ x, accepts c = true) :
      Reads (few accepts) before (x ++ s) ⟨x, []⟩
  | done {p : Pattern} {before : Option Char} {t : Text} : Reads (repeated p) before t .nothing
  /-- A repetition goes on where its step got further. -/
  | again {p : Pattern} {before : Option Char} {s : Text} {a b : Reading}
      (first : Reads p before (a.text ++ s) a) (moved : a.text ≠ [])
      (rest : Reads (repeated p) (lastOf before a.text) s b) :
      Reads (repeated p) before (a.text ++ s) (a.append b)
  | group {p : Pattern} {before : Option Char} {t : Text} {a : Reading} (index : Nat) (read : Reads p before t a) :
      Reads (group index p) before t (a.keep index)

theorem Reads.front {a : Reading} (h : p.Reads before t a) : a.text <+: t := by
  induction h with
  | empty | boundary | done => exact List.nil_prefix
  | one | many | few => exact List.prefix_append _ _
  | sequence _ _ _ second | again _ _ _ _ second => exact (List.prefix_append_right_inj _).mpr second
  | left _ ih | right _ ih | group _ _ ih => exact ih

private theorem reads_of_mem_repeatedly {a : Reading} {rounds : Nat}
    (step : ∀ {before t a}, a ∈ p.readings before t → p.Reads before t a)
    (h : a ∈ repeatedly p.readings rounds before t) : (repeated p).Reads before t a := by
  induction rounds generalizing before t a with
  | zero =>
      obtain rfl := List.mem_singleton.mp h
      exact .done
  | succ rounds ih =>
      rcases mem_repeatedly_succ.mp h with ⟨first, hfirst, moved, second, hsecond, rfl⟩ | rfl
      · obtain ⟨s, rfl⟩ := (step hfirst).front
        rw [List.drop_left] at hsecond
        exact .again (step hfirst) moved (ih hsecond)
      · exact .done

theorem reads_of_mem {a : Reading} (h : a ∈ p.readings before t) : p.Reads before t a := by
  induction p generalizing before t a with
  | empty =>
      obtain rfl := List.mem_singleton.mp h
      exact .empty
  | one accepts =>
      obtain ⟨c, s, rfl, accepted, rfl⟩ := mem_one.mp h
      exact .one accepted
  | boundary =>
      obtain ⟨edge, rfl⟩ := mem_boundary.mp h
      exact .boundary edge
  | sequence p q ihp ihq =>
      obtain ⟨first, hfirst, second, hsecond, rfl⟩ := mem_append.mp h
      obtain ⟨s, rfl⟩ := (ihp hfirst).front
      rw [List.drop_left] at hsecond
      exact .sequence (ihp hfirst) (ihq hsecond)
  | choice p q ihp ihq =>
      rcases List.mem_append.mp h with h | h
      · exact .left (ihp h)
      · exact .right (ihq h)
  | many accepts =>
      simp only [readings, List.mem_map, List.mem_reverse] at h
      obtain ⟨x, hx, rfl⟩ := h
      obtain ⟨⟨s, rfl⟩, run⟩ := mem_stretches.mp hx
      exact .many run
  | few accepts =>
      simp only [readings, List.mem_map] at h
      obtain ⟨x, hx, rfl⟩ := h
      obtain ⟨⟨s, rfl⟩, run⟩ := mem_stretches.mp hx
      exact .few run
  | repeated body ih => exact reads_of_mem_repeatedly ih h
  | group index body ih =>
      obtain ⟨inner, hinner, rfl⟩ := List.mem_map.mp h
      exact .group index (ih hinner)

theorem front_of_mem {a : Reading} (h : a ∈ p.readings before t) : a.text <+: t :=
  (reads_of_mem h).front

private theorem nothing_mem_repeatedly (step : Option Char → Text → List Reading) (rounds : Nat)
    (before : Option Char) (t : Text) : Reading.nothing ∈ repeatedly step rounds before t := by
  cases rounds <;> simp [repeatedly]

private theorem mem_repeatedly_of_le {step : Option Char → Text → List Reading} {m n : Nat} {a : Reading} (le : m ≤ n)
    (h : a ∈ repeatedly step m before t) : a ∈ repeatedly step n before t := by
  induction m generalizing n before t a with
  | zero =>
      obtain rfl := List.mem_singleton.mp h
      exact nothing_mem_repeatedly step n before t
  | succ m ih =>
      obtain ⟨k, rfl⟩ := Nat.exists_eq_add_of_le' (Nat.one_le_of_lt le)
      refine mem_repeatedly_succ.mpr ((mem_repeatedly_succ.mp h).imp_left ?_)
      rintro ⟨first, hfirst, moved, second, hsecond, rfl⟩
      exact ⟨first, hfirst, moved, second, ih (Nat.le_of_succ_le_succ le) hsecond, rfl⟩

theorem Reads.mem {a : Reading} (h : p.Reads before t a) : a ∈ p.readings before t := by
  induction h with
  | empty => exact List.mem_singleton.mpr rfl
  | one accepted => exact mem_one.mpr ⟨_, _, rfl, accepted, rfl⟩
  | boundary edge => exact mem_boundary.mpr ⟨edge, rfl⟩
  | sequence _ _ first second => exact mem_append_of_mem first second
  | left _ ih => exact List.mem_append_left _ ih
  | right _ ih => exact List.mem_append_right _ ih
  | many run => exact mem_many.mpr ⟨List.prefix_append _ _, run, rfl⟩
  | few run =>
      simp only [readings, List.mem_map]
      exact ⟨_, mem_stretches.mpr ⟨List.prefix_append _ _, run⟩, rfl⟩
  | done => exact nothing_mem_repeatedly _ _ _ _
  | @again p before s a b _ moved _ first second =>
      -- A step that gets further leaves rounds for whatever can be read behind it.
      obtain ⟨k, rounds⟩ : ∃ k, (a.text ++ s).length = s.length + k + 1 := by
        have := List.length_pos_of_ne_nil moved
        exact ⟨a.text.length - 1, by rw [List.length_append]; omega⟩
      rw [readings, rounds]
      refine mem_repeatedly_succ.mpr (.inl ⟨a, first, moved, b, ?_, rfl⟩)
      rw [List.drop_left]
      exact mem_repeatedly_of_le (Nat.le_add_right _ _) second
  | group _ _ ih => exact List.mem_map_of_mem ih

theorem mem_readings_iff {a : Reading} : a ∈ p.readings before t ↔ p.Reads before t a :=
  ⟨reads_of_mem, Reads.mem⟩

theorem exists_of_mem_append {a : Reading} (h : a ∈ (p ++ q).readings before t) :
    ∃ first ∈ p.readings before t, ∃ s, t = first.text ++ s ∧
      ∃ second ∈ q.readings (lastOf before first.text) s, a = first.append second := by
  obtain ⟨first, hfirst, second, hsecond, rfl⟩ := mem_append.mp h
  obtain ⟨s, rfl⟩ := front_of_mem hfirst
  rw [List.drop_left] at hsecond
  exact ⟨first, hfirst, s, rfl, second, hsecond, rfl⟩

/-- Whether a pattern may read nothing. -/
def nullable : Pattern → Bool
  | empty | boundary | many _ | few _ | repeated _ => true
  | one _ => false
  | sequence first second => first.nullable && second.nullable
  | choice first second => first.nullable || second.nullable
  | group _ body => body.nullable

/-- Whether what a pattern reads may begin with a character. -/
def opens : Pattern → Char → Bool
  | empty, _ | boundary, _ => false
  | one accepts, c | many accepts, c | few accepts, c => accepts c
  | sequence first second, c => first.opens c || (first.nullable && second.opens c)
  | choice first second, c => first.opens c || second.opens c
  | repeated body, c => body.opens c
  | group _ body, c => body.opens c

@[simp] theorem nullable_append : (p ++ q).nullable = (p.nullable && q.nullable) := rfl

@[simp] theorem nullable_orElse : (p <|> q).nullable = (p.nullable || q.nullable) := rfl

@[simp] theorem nullable_optional : (optional p).nullable = true := Bool.or_true _

@[simp] theorem opens_append {c : Char} :
    (p ++ q).opens c = (p.opens c || (p.nullable && q.opens c)) := rfl

@[simp] theorem opens_orElse {c : Char} : (p <|> q).opens c = (p.opens c || q.opens c) := rfl

@[simp] theorem opens_optional {c : Char} : (optional p).opens c = p.opens c := Bool.or_false _

@[simp] theorem nullable_atLeastOne : (atLeastOne accepts).nullable = false := rfl

@[simp] theorem opens_atLeastOne {c : Char} : (atLeastOne accepts).opens c = accepts c := Bool.or_false _

/-- A reading is empty where the pattern allows it, or begins with a character that opens it. -/
private def Opened (p : Pattern) (x : Text) : Prop :=
  (x = [] ∧ p.nullable = true) ∨ ∃ c y, x = c :: y ∧ p.opens c = true

private theorem Opened.mono (h : p.Opened x) (nullable : p.nullable = true → q.nullable = true)
    (opens : ∀ c, p.opens c = true → q.opens c = true) : q.Opened x := by
  obtain ⟨none, read⟩ | ⟨c, y, text, read⟩ := h
  · exact .inl ⟨none, nullable read⟩
  · exact .inr ⟨c, y, text, opens c read⟩

private theorem opened_run (run : ∀ c ∈ x, accepts c = true) : x = [] ∨ ∃ c y, x = c :: y ∧ accepts c = true := by
  cases x with
  | nil => exact .inl rfl
  | cons c x => exact .inr ⟨c, x, rfl, run c List.mem_cons_self⟩

private theorem Reads.opened {a : Reading} (h : p.Reads before t a) : p.Opened a.text := by
  induction h with
  | empty | boundary | done => exact .inl ⟨rfl, rfl⟩
  | one accepted => exact .inr ⟨_, [], rfl, accepted⟩
  | @sequence p q _ _ a b _ _ first second =>
      rcases first with ⟨none, nullable⟩ | ⟨c, y, text, opens⟩
      · rcases second with ⟨none', nullable'⟩ | ⟨c, y, text, opens⟩
        · exact .inl ⟨by simp [Reading.append, none, none'], by simp [Pattern.nullable, nullable, nullable']⟩
        · exact .inr ⟨c, y, by simp [Reading.append, none, text], by simp [Pattern.opens, nullable, opens]⟩
      · exact .inr ⟨c, y ++ b.text, by simp [Reading.append, text], by simp [Pattern.opens, opens]⟩
  | left _ ih => exact ih.mono (by simp +contextual [Pattern.nullable]) (by simp +contextual [Pattern.opens])
  | right _ ih => exact ih.mono (by simp +contextual [Pattern.nullable]) (by simp +contextual [Pattern.opens])
  | many run | few run => exact (opened_run run).imp_left fun none => ⟨none, rfl⟩
  | @again _ _ _ a b _ moved _ first _ =>
      obtain ⟨none, -⟩ | ⟨c, y, text, opens⟩ := first
      · exact absurd none moved
      · exact .inr ⟨c, y ++ b.text, by simp [Reading.append, text], opens⟩
  | group _ _ ih => exact ih

theorem ne_nil_of_mem {a : Reading} (reads : p.nullable = false) (h : a ∈ p.readings before t) : a.text ≠ [] := by
  rcases (reads_of_mem h).opened with ⟨-, nullable⟩ | ⟨c, y, text, -⟩
  · rw [reads] at nullable
    cases nullable
  · rw [text]
    exact List.cons_ne_nil c y

theorem refuses_iff : p.Refuses before t ↔ ∀ a, a ∉ p.readings before t :=
  List.eq_nil_iff_forall_not_mem

theorem refuses_of_stops (reads : p.nullable = false) (h : Stops p.opens t) : p.Refuses before t := by
  refine refuses_iff.mpr fun a ha => ?_
  rcases (reads_of_mem ha).opened with ⟨-, nullable⟩ | ⟨c, y, text, opened⟩
  · rw [reads] at nullable
    cases nullable
  · obtain ⟨rest, rfl⟩ := front_of_mem ha
    have closed := h c (by simp [text])
    rw [opened] at closed
    cases closed

theorem refuses_append
    (h : ∀ a s, a ∈ p.readings before t → t = a.text ++ s → q.Refuses (lastOf before a.text) s) :
    (p ++ q).Refuses before t := by
  refine refuses_iff.mpr fun a ha => ?_
  obtain ⟨first, hfirst, second, hsecond, -⟩ := mem_append.mp ha
  obtain ⟨s, rfl⟩ := front_of_mem hfirst
  rw [List.drop_left] at hsecond
  exact refuses_iff.mp (h first s hfirst rfl) second hsecond

theorem Refuses.behind {a : Reading} (h : (p ++ q).Refuses before (a.text ++ s))
    (first : a ∈ p.readings before (a.text ++ s)) : q.Refuses (lastOf before a.text) s :=
  refuses_iff.mpr fun _ hb => refuses_iff.mp h _ (mem_append_of_mem first hb)

theorem Refuses.append (h : p.Refuses before t) : (p ++ q).Refuses before t := by
  rw [Refuses, readings_append, h, List.flatMap_nil]

theorem not_refuses_optional (before : Option Char) (t : Text) : ¬ (optional p).Refuses before t := fun refuses =>
  refuses_iff.mp refuses .nothing (List.mem_append_right _ (List.mem_singleton.mpr rfl))

theorem Refuses.of_optional (h : (p ++ optional q).Refuses before t) : p.Refuses before t :=
  refuses_iff.mpr fun _ ha => by
    obtain ⟨s, rfl⟩ := front_of_mem ha
    exact not_refuses_optional _ s (h.behind ha)

theorem refuses_orElse :
    (p <|> q).Refuses before t ↔ p.Refuses before t ∧ q.Refuses before t := by
  simp only [Refuses, readings_orElse, List.append_eq_nil_iff]

theorem refuses_orElse_append :
    ((p <|> q) ++ r).Refuses before t ↔ (p ++ r).Refuses before t ∧ (q ++ r).Refuses before t := by
  simp only [Refuses, readings_orElse_append, List.append_eq_nil_iff]

theorem refuses_optional_append :
    (optional p ++ q).Refuses before t ↔ (p ++ q).Refuses before t ∧ q.Refuses before t := by
  simp only [Refuses, readings_optional_append, List.append_eq_nil_iff]

theorem refuses_append_assoc :
    ((p ++ q) ++ r).Refuses before t ↔ (p ++ (q ++ r)).Refuses before t := by
  rw [Refuses, readings_append_assoc, Refuses]

theorem Refuses.group (h : p.Refuses before t) (index : Nat) : (group index p).Refuses before t := by
  rw [Refuses, readings_group, h, List.map_nil]

theorem refuses_group_append {index : Nat} :
    (group index p ++ q).Refuses before t ↔ (p ++ q).Refuses before t := by
  simp only [Refuses, readings_append, readings_group, List.flatMap_map, List.flatMap_eq_nil_iff,
    List.map_eq_nil_iff, Reading.keep]

theorem refuses_boundary_append :
    (boundary ++ q).Refuses before t ↔ isEdge before t = false ∨ q.Refuses before t := by
  simp only [Refuses, readings_boundary_append, ite_eq_right_iff, ← Bool.not_eq_true]
  exact imp_iff_not_or

theorem refuses_many_append
    (h : ∀ y s, t = y ++ s → (∀ c ∈ y, accepts c = true) → q.Refuses (lastOf before y) s) :
    (many accepts ++ q).Refuses before t := by
  apply refuses_append
  intro a s ha split
  exact h a.text s split (mem_many.mp ha).2.1

namespace Takes

theorem append (first : p.Takes before x kept (y ++ s)) (second : q.Takes (lastOf before x) y more s) :
    (p ++ q).Takes before (x ++ y) (more ++ kept) s := by
  obtain ⟨rest, hp⟩ := List.head?_eq_some_iff.mp first
  obtain ⟨rest', hq⟩ := List.head?_eq_some_iff.mp second
  rw [Takes, List.append_assoc, readings_append, hp, List.flatMap_cons, List.drop_left, hq]
  rfl

theorem assoc :
    ((p ++ q) ++ r).Takes before x kept s ↔ (p ++ (q ++ r)).Takes before x kept s := by
  rw [Takes, readings_append_assoc, Takes]

theorem left (h : p.Takes before x kept s) : (p <|> q).Takes before x kept s := by
  rw [Takes, readings_orElse, List.head?_append, h, Option.some_or]

theorem right (refused : p.Refuses before (x ++ s)) (h : q.Takes before x kept s) :
    (p <|> q).Takes before x kept s := by
  rw [Takes, readings_orElse, refused, List.nil_append, h]

theorem optional (h : (p ++ q).Takes before x kept s) :
    (Pattern.optional p ++ q).Takes before x kept s := by
  rw [Takes, readings_optional_append, List.head?_append, h, Option.some_or]

theorem skip (refused : (p ++ q).Refuses before (x ++ s)) (h : q.Takes before x kept s) :
    (Pattern.optional p ++ q).Takes before x kept s := by
  rw [Takes, readings_optional_append, refused, List.nil_append, h]

theorem nothing (refused : p.Refuses before s) : (Pattern.optional p).Takes before [] [] s := by
  rw [Takes, Pattern.optional, List.nil_append]
  change (p.readings before s ++ [Reading.nothing]).head? = _
  rw [refused]
  rfl

theorem group (index : Nat) (h : p.Takes before x kept s) :
    (Pattern.group index p).Takes before x ((index, x) :: kept) s := by
  rw [Takes, readings_group, List.head?_map, h]
  rfl

theorem boundary (h : isEdge before s = true) : Pattern.boundary.Takes before [] [] s := by
  simp [Takes, readings, h, Reading.nothing]

theorem one {c : Char} (h : accepts c = true) : (Pattern.one accepts).Takes before [c] [] s := by
  simp [Takes, readings, h]

theorem many (all : ∀ c ∈ x, accepts c = true) (stops : Stops accepts s) :
    (Pattern.many accepts).Takes before x [] s := by
  have last : (stretches accepts (x ++ s)).getLast? = some x := by
    induction x with
    | nil =>
        cases s with
        | nil => rfl
        | cons c s => simp [stretches, stops c (by simp)]
    | cons c x ih =>
        have rest := ih fun d hd => all d (List.mem_cons_of_mem c hd)
        simp only [List.cons_append, stretches, all c (by simp), if_true, List.getLast?_cons,
          List.getLast?_map, rest, Option.map_some, Option.getD_some]
  rw [Takes, readings, List.head?_map, List.head?_reverse, last]
  rfl

/-- The first reading is the only one where every reading reads the same. -/
theorem of_forall (all : ∀ a ∈ p.readings before (x ++ s), a = ⟨x, kept⟩)
    (reads : ¬ p.Refuses before (x ++ s)) : p.Takes before x kept s := by
  obtain ⟨a, rest, h⟩ := List.exists_cons_of_ne_nil reads
  rw [Takes, h, List.head?_cons, all a (by simp [h])]

theorem mem (h : p.Takes before x kept s) : ⟨x, kept⟩ ∈ p.readings before (x ++ s) := by
  obtain ⟨rest, readings⟩ := List.head?_eq_some_iff.mp h
  exact readings ▸ List.mem_cons_self

theorem not_refuses (h : p.Takes before x kept s) : ¬ p.Refuses before (x ++ s) := fun refused =>
  refuses_iff.mp refused _ h.mem

theorem ne_nil (reads : p.nullable = false) (h : p.Takes before x kept s) : x ≠ [] :=
  ne_nil_of_mem reads h.mem

end Takes

/-- A repetition is passed over where a step leads to places at which neither another step nor what
comes next can go on. -/
theorem readings_repeated_append_of_dead
    (dead : ∀ a s, a ∈ p.readings before t → t = a.text ++ s →
      p.Refuses (lastOf before a.text) s ∧ q.Refuses (lastOf before a.text) s) :
    (repeated p ++ q).readings before t = q.readings before t := by
  have once : ∀ rounds a s, a ∈ p.readings before t → t = a.text ++ s →
      repeatedly p.readings rounds (lastOf before a.text) s = [.nothing] := by
    intro rounds a s ha split
    cases rounds with
    | zero => rfl
    | succ rounds =>
        have refused := (dead a s ha split).1
        simp only [Refuses] at refused
        simp [repeatedly, refused]
  have passed : ∀ rounds, (repeatedly p.readings rounds before t).flatMap (fun a =>
      (q.readings (lastOf before a.text) (t.drop a.text.length)).map a.append) =
        q.readings before t := by
    intro rounds
    have nothing : (q.readings (lastOf before Reading.nothing.text)
        (t.drop Reading.nothing.text.length)).map Reading.nothing.append = q.readings before t := by
      rw [Reading.nothing_append, List.map_id]
      rfl
    cases rounds with
    | zero => simpa [repeatedly] using nothing
    | succ rounds =>
        simp only [repeatedly, List.flatMap_append, List.flatMap_singleton, nothing]
        rw [List.append_left_eq_self, List.flatMap_assoc]
        refine List.flatMap_eq_nil_iff.mpr fun a ha => ?_
        obtain ⟨s, split⟩ := front_of_mem ha
        have rest : t.drop a.text.length = s := by rw [← split, List.drop_left]
        have refused := (dead a s ha split.symm).2
        simp only [Refuses] at refused
        split
        · rw [rest, once rounds a s ha split.symm]
          simp [Reading.nothing, Reading.append, rest, refused]
        · rfl
  exact passed t.length

end Pinout.Pattern
