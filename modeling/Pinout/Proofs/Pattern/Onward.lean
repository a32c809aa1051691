import Pinout.Proofs.Pattern.Halting

/-! # Going on behind a reading

Where only the first reading counts, a pattern can be read as what it does to everything that comes after
it: it tries its ways in order, and the first one behind which the rest succeeds is taken. In this form a
class that reads on to its end is a single step, and so is an attempt that the rest gives up.
-/

namespace Pinout.Pattern

/-- What comes of going on between a character and a text: what is kept from there on and the text that is
left, or nothing if it cannot be done. -/
abbrev Onward := Option Char → Text → Option (List (Nat × Text) × Text)

def ended : Onward := fun _ s => some ([], s)

def told (asked : Nat → Bool) (r : Reading) : List (Nat × Text) :=
  r.kept.filter fun entry => asked entry.1

variable {asked : Nat → Bool} {accepts : Char → Bool} {p q : Pattern} {next : Onward} {before : Option Char} {c : Char}
  {s t x : Text} {index : Nat}

/-- What has been found behind a reading, with what the reading keeps itself. -/
def behind (asked : Nat → Bool) (r : Reading) : Option (List (Nat × Text) × Text) → Option (List (Nat × Text) × Text) :=
  Option.map fun (kept, rest) => (kept ++ told asked r, rest)

/-- What comes of the first reading of a list behind which one can go on. -/
def firstOf (asked : Nat → Bool) (readings : List Reading) (next : Onward) : Onward := fun before t =>
  readings.findSome? fun r => behind asked r (next (lastOf before r.text) (t.drop r.text.length))

/-- What comes of reading the pattern and going on behind it. -/
def via (asked : Nat → Bool) (p : Pattern) (next : Onward) : Onward := fun before t =>
  firstOf asked (p.readings before t) next before t

theorem told_append (a b : Reading) : told asked (a.append b) = told asked b ++ told asked a :=
  List.filter_append ..

theorem lookup_told (r : Reading) (h : asked index = true) : (told asked r).lookup index = r.group? index := by
  rw [told, Reading.group?]
  induction r.kept with
  | nil => rfl
  | cons entry kept ih =>
      obtain ⟨number, text⟩ := entry
      rw [List.filter_cons, List.lookup_cons]
      cases same : index == number with
      | true =>
          obtain rfl := beq_iff_eq.mp same
          simp [h]
      | false =>
          rw [← ih]
          split
          · rw [List.lookup_cons, same]
          · rfl

theorem behind_append (a b : Reading) (found : Option (List (Nat × Text) × Text)) :
    behind asked (a.append b) found = behind asked a (behind asked b found) := by
  cases found with
  | none => rfl
  | some found => simp only [behind, Option.map_some, told_append, List.append_assoc]

theorem behind_plain (x : Text) (found : Option (List (Nat × Text) × Text)) : behind asked ⟨x, []⟩ found = found := by
  cases found with
  | none => rfl
  | some found => simp only [behind, Option.map_some, told, List.filter_nil, List.append_nil]

theorem firstOf_nil : firstOf asked [] next before t = none := rfl

theorem firstOf_cons (r : Reading) (rs : List Reading) : firstOf asked (r :: rs) next before t =
    (behind asked r (next (lastOf before r.text) (t.drop r.text.length))).or (firstOf asked rs next before t) := by
  rw [firstOf, List.findSome?_cons]
  cases behind asked r (next (lastOf before r.text) (t.drop r.text.length)) <;> rfl

theorem firstOf_append (rs rs' : List Reading) : firstOf asked (rs ++ rs') next before t =
    (firstOf asked rs next before t).or (firstOf asked rs' next before t) :=
  List.findSome?_append

theorem firstOf_plain : firstOf asked [⟨[], []⟩] next before t = next before t := by
  rw [firstOf_cons, behind_plain, firstOf_nil, Option.or_none]
  rfl

theorem firstOf_map_append (a : Reading) (rs : List Reading) : firstOf asked (rs.map a.append) next before t =
    behind asked a (firstOf asked rs next (lastOf before a.text) (t.drop a.text.length)) := by
  induction rs with
  | nil => rfl
  | cons b rs ih =>
      rw [List.map_cons, firstOf_cons, ih, firstOf_cons, behind_append]
      simp only [behind, Option.map_or, Reading.append, lastOf_append, List.length_append, List.drop_drop]

private theorem findSome?_congr {α β : Type} {f g : α → Option β} {l : List α} (h : ∀ a ∈ l, f a = g a) :
    l.findSome? f = l.findSome? g := by
  induction l with
  | nil => rfl
  | cons a l ih => rw [List.findSome?_cons, List.findSome?_cons, h a (by simp), ih fun b hb => h b (by simp [hb])]

theorem firstOf_flatMap (rs : List Reading) (more : Reading → List Reading) :
    firstOf asked (rs.flatMap more) next before t = rs.findSome? fun r => firstOf asked (more r) next before t :=
  findSome?_flatMap ..

theorem firstOf_congr {next' : Onward} {rs : List Reading}
    (h : ∀ r ∈ rs, next (lastOf before r.text) (t.drop r.text.length) = next' (lastOf before r.text) (t.drop r.text.length)) :
    firstOf asked rs next before t = firstOf asked rs next' before t :=
  findSome?_congr fun r hr => by rw [h r hr]

theorem via_ended : p.via asked ended before t =
    (p.readings before t).head?.map fun r => (told asked r, t.drop r.text.length) := by
  rw [via]
  cases p.readings before t with
  | nil => rfl
  | cons r rest => rfl

theorem via_ended_eq_none_iff : p.via asked ended before t = none ↔ p.Refuses before t := by
  rw [via_ended, Option.map_eq_none_iff, List.head?_eq_none_iff, Refuses]

theorem via_congr (same : ∀ before t, p.readings before t = q.readings before t) :
    p.via asked next = q.via asked next := by
  funext before t
  rw [via, same, via]

theorem via_of_refuses (h : p.Refuses before t) : p.via asked next before t = none := by
  rw [via, h, firstOf_nil]

theorem via_append : (p ++ q).via asked next = p.via asked (q.via asked next) := by
  funext before t
  rw [via, readings_append, firstOf_flatMap]
  simp only [firstOf_map_append]
  rfl

theorem via_optional : (optional p).via asked next before t = (p.via asked next before t).or (next before t) := by
  rw [via, optional, readings, firstOf_append]
  exact congrArg _ firstOf_plain

theorem via_group (unasked : asked index = false) : (group index p).via asked next = p.via asked next := by
  funext before t
  rw [via, readings_group, firstOf, List.findSome?_map]
  congr 1
  funext r
  have same : behind asked (r.keep index) = behind asked r := by
    simp only [behind, told, Reading.keep, List.filter_cons, unasked, Bool.false_eq_true, if_false]
  rw [Function.comp_apply, same]
  rfl

theorem via_boundary : boundary.via asked next before t = if isEdge before t then next before t else none := by
  rw [via, readings]
  split
  · exact firstOf_plain
  · rfl

theorem via_one : (one accepts).via asked next before (c :: s) = if accepts c then next (some c) s else none := by
  rw [via, readings]
  split
  · rw [firstOf_cons, behind_plain, firstOf_nil, Option.or_none]
    rfl
  · rfl

theorem via_many_nil : (many accepts).via asked next before [] = next before [] := firstOf_plain

theorem via_many_cons : (many accepts).via asked next before (c :: s) =
    (if accepts c then (many accepts).via asked next (some c) s else none).or (next before (c :: s)) := by
  simp only [via, readings, stretches, List.reverse_cons, List.map_append, firstOf_append, List.map_singleton]
  rw [firstOf_plain]
  split
  · have longer : (((stretches accepts s).map (c :: ·)).reverse.map fun x => (⟨x, []⟩ : Reading)) =
        ((stretches accepts s).reverse.map fun x => (⟨x, []⟩ : Reading)).map (Reading.append ⟨[c], []⟩) := by
      simp only [← List.map_reverse, List.map_map]
      rfl
    rw [longer, firstOf_map_append, behind_plain]
    rfl
  · rfl

/-- It is not possible to go on in front of a character of the class. -/
def Halts (accepts : Char → Bool) (next : Onward) : Prop :=
  ∀ before c s, accepts c = true → next before (c :: s) = none

theorem halts_char (refused : accepts c = false) : Halts accepts ((char c).via asked next) := by
  intro before d s accepted
  have other : (d == c) = false := by
    rw [beq_eq_false_iff_ne]
    rintro rfl
    rw [refused] at accepted
    cases accepted
  rw [char, via_one, other]
  rfl

/-- Where only the end of a run leads on, the run is passed over. -/
theorem via_many_run (halts : Halts accepts next) (all : ∀ c ∈ x, accepts c = true) (stops : Stops accepts s) :
    (many accepts).via asked next before (x ++ s) = next (lastOf before x) s := by
  induction x generalizing before with
  | nil =>
      cases s with
      | nil => exact via_many_nil
      | cons c s =>
          rw [List.nil_append, via_many_cons, stops_cons.mp stops]
          rfl
  | cons c x ih =>
      rw [List.cons_append, via_many_cons, if_pos (all c (by simp)), ih fun d hd => all d (by simp [hd]),
        halts before c _ (all c (by simp)), Option.or_none, lastOf_cons]

/-- Where the end of a run leads on, the run is read as far as it goes. -/
theorem via_many_of_some {found : List (Nat × Text) × Text} (all : ∀ c ∈ x, accepts c = true) (stops : Stops accepts s)
    (leads : next (lastOf before x) s = some found) : (many accepts).via asked next before (x ++ s) = some found := by
  induction x generalizing before with
  | nil =>
      cases s with
      | nil => rwa [List.nil_append, via_many_nil]
      | cons c s =>
          rw [List.nil_append, via_many_cons, stops_cons.mp stops]
          exact leads
  | cons c x ih =>
      rw [List.cons_append, via_many_cons, if_pos (all c (by simp)), ih (fun d hd => all d (by simp [hd])) leads,
        Option.some_or]

/-- A run with a mark in it that the class itself accepts is passed over as well, and one without it is refused. -/
theorem via_many_char_many_run (halts : Halts accepts next) (accepted : accepts c = true)
    (all : ∀ d ∈ x, accepts d = true) (stops : Stops accepts s) :
    (many accepts).via asked ((char c).via asked ((many accepts).via asked next)) before (x ++ s) =
      if c ∈ x then next (lastOf before x) s else none := by
  induction x generalizing before with
  | nil =>
      cases s with
      | nil => exact via_many_nil
      | cons d s =>
          have other : (d == c) = false := by
            rw [beq_eq_false_iff_ne]
            rintro rfl
            rw [stops_cons.mp stops] at accepted
            cases accepted
          rw [List.nil_append, via_many_cons, stops_cons.mp stops, char, via_one, other]
          rfl
  | cons d x ih =>
      have inside : ∀ e ∈ x, accepts e = true := fun e he => all e (by simp [he])
      rw [List.cons_append, via_many_cons, if_pos (all d (by simp)), ih inside, char, via_one,
        via_many_run halts inside stops, lastOf_cons]
      by_cases here : d = c
      · subst here
        by_cases again : d ∈ x <;> simp [again]
      · simp [here, Ne.symm here]

/-- What comes of reading the pattern up to `rounds` times and going on behind it. -/
def viaTimes (asked : Nat → Bool) (p : Pattern) (next : Onward) : (rounds : Nat) → Onward
  | 0 => next
  | rounds + 1 => fun before t => (p.via asked (viaTimes asked p next rounds) before t).or (next before t)

theorem viaTimes_succ (rounds : Nat) : viaTimes asked p next (rounds + 1) before t =
    (p.via asked (viaTimes asked p next rounds) before t).or (next before t) := rfl

private theorem firstOf_repeatedly (reads : p.nullable = false) (rounds : Nat) (before : Option Char) (t : Text) :
    firstOf asked (repeatedly p.readings rounds before t) next before t = viaTimes asked p next rounds before t := by
  induction rounds generalizing before t with
  | zero => exact firstOf_plain
  | succ rounds ih =>
      rw [repeatedly, firstOf_append, firstOf_flatMap, viaTimes_succ]
      congr 1
      · rw [via, firstOf]
        refine findSome?_congr fun a ha => ?_
        rw [if_pos (List.length_pos_of_ne_nil (ne_nil_of_mem reads ha)), firstOf_map_append, ih]
      · exact firstOf_plain

private theorem viaTimes_nil (reads : p.nullable = false) (rounds : Nat) :
    viaTimes asked p next rounds before [] = next before [] := by
  cases rounds with
  | zero => rfl
  | succ rounds => rw [viaTimes_succ, via_of_refuses (refuses_of_stops reads stops_nil), Option.none_or]

/-- More rounds than there are characters make no difference. -/
private theorem viaTimes_eq (reads : p.nullable = false) {rounds rounds' : Nat} (long : t.length ≤ rounds)
    (long' : t.length ≤ rounds') : viaTimes asked p next rounds before t = viaTimes asked p next rounds' before t := by
  induction rounds generalizing before t rounds' with
  | zero =>
      obtain rfl := List.eq_nil_of_length_eq_zero (Nat.le_zero.mp long)
      rw [viaTimes_nil reads, viaTimes_nil reads]
  | succ rounds ih =>
      cases rounds' with
      | zero =>
          obtain rfl := List.eq_nil_of_length_eq_zero (Nat.le_zero.mp long')
          rw [viaTimes_nil reads, viaTimes_nil reads]
      | succ rounds' =>
          rw [viaTimes_succ, viaTimes_succ, via, via]
          congr 1
          refine firstOf_congr fun a ha => ?_
          have moved := List.length_pos_of_ne_nil (ne_nil_of_mem reads ha)
          apply ih <;> rw [List.length_drop] <;> omega

theorem via_repeated (reads : p.nullable = false) {rounds : Nat} (long : t.length ≤ rounds) :
    (repeated p).via asked next before t = viaTimes asked p next rounds before t :=
  (firstOf_repeatedly reads t.length before t).trans (viaTimes_eq reads (Nat.le_refl _) long)

end Pinout.Pattern
