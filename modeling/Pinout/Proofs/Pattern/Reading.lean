import Pinout.Pattern.Search

/-! # Readings

What a pattern reads depends only on the character in front of a place and on the text behind it.
`Pattern.readings` lists the ways to read a pattern there in the order in which `Pattern.run` tries
them, without positions and continuations, so that a match is the first reading.
-/

namespace Pinout

def lastOf : (before : Option Char) → Text → Option Char
  | before, [] => before
  | _, c :: t => lastOf (some c) t

@[simp] theorem lastOf_nil (before : Option Char) : lastOf before [] = before := rfl

@[simp] theorem lastOf_cons (before : Option Char) (c : Char) (t : Text) :
    lastOf before (c :: t) = lastOf (some c) t := rfl

@[simp] theorem lastOf_append (before : Option Char) (s t : Text) :
    lastOf before (s ++ t) = lastOf (lastOf before s) t := by
  induction s generalizing before with
  | nil => rfl
  | cons c s ih => exact ih (some c)

theorem lastOf_mem (before : Option Char) {t : Text} (h : t ≠ []) :
    ∃ c ∈ t, lastOf before t = some c := by
  induction t generalizing before with
  | nil => exact absurd rfl h
  | cons c t ih =>
      cases t with
      | nil => exact ⟨c, by simp, rfl⟩
      | cons d t =>
          obtain ⟨e, he, same⟩ := ih (some c) (by simp)
          exact ⟨e, List.mem_cons_of_mem c he, same⟩

namespace Cursor

theorem skip_append (x s : Text) (before : Option Char) (position : Nat) :
    skip x.length ⟨before, position, x ++ s⟩ = ⟨lastOf before x, position + x.length, s⟩ := by
  induction x generalizing before position with
  | nil => rfl
  | cons c x ih =>
      simp only [List.length_cons, List.cons_append, skip, ih, lastOf_cons, Cursor.mk.injEq, true_and,
        and_true]
      omega

theorem skip_nil (count : Nat) (before : Option Char) (position : Nat) :
    skip count ⟨before, position, []⟩ = ⟨before, position, []⟩ := by
  cases count <;> rfl

theorem skip_add (m n : Nat) (here : Cursor) : skip (m + n) here = skip n (skip m here) := by
  induction m generalizing here with
  | zero => rw [Nat.zero_add, skip]
  | succ m ih =>
      obtain ⟨before, position, rest⟩ := here
      rw [Nat.add_right_comm]
      cases rest with
      | nil => simp only [skip, skip_nil]
      | cons c rest => exact ih _

end Cursor

/-- One way to read a pattern: the text that is read and what is kept of it, latest first. -/
structure Reading where
  text : Text
  kept : List (Nat × Text)
  deriving DecidableEq, Repr

namespace Reading

def nothing : Reading := ⟨[], []⟩

def append (r s : Reading) : Reading := ⟨r.text ++ s.text, s.kept ++ r.kept⟩

def keep (index : Nat) (r : Reading) : Reading := ⟨r.text, (index, r.text) :: r.kept⟩

@[simp] theorem nothing_append : nothing.append = id := by
  funext r
  simp [nothing, append]

theorem append_assoc (r s t : Reading) : (r.append s).append t = r.append (s.append t) := by
  simp [append]

end Reading

/-- The texts at the front of a text that are made of characters of a class, the shortest first. -/
def stretches (accepts : Char → Bool) : Text → List Text
  | [] => [[]]
  | c :: t => [] :: if accepts c then (stretches accepts t).map (c :: ·) else []

/-- Whether exactly one of the two neighbours of the place between `before` and `t` is a word
character. -/
def isEdge (before : Option Char) (t : Text) : Bool :=
  before.any Text.isWord != t.head?.any Text.isWord

namespace Pattern

/-- The ways to take up to `rounds` steps that read something, as many as possible first. -/
def repeatedly (step : Option Char → Text → List Reading) :
    (rounds : Nat) → Option Char → Text → List Reading
  | 0, _, _ => [.nothing]
  | rounds + 1, before, t =>
    ((step before t).flatMap fun r =>
      if 0 < r.text.length then
        (repeatedly step rounds (lastOf before r.text) (t.drop r.text.length)).map r.append
      else []) ++
      [.nothing]

def readings : Pattern → (before : Option Char) → (t : Text) → List Reading
  | empty, _, _ => [.nothing]
  | one accepts, _, t =>
    match t with
    | [] => []
    | c :: _ => if accepts c then [⟨[c], []⟩] else []
  | boundary, before, t => if isEdge before t then [.nothing] else []
  | sequence first second, before, t =>
    (first.readings before t).flatMap fun r =>
      (second.readings (lastOf before r.text) (t.drop r.text.length)).map r.append
  | choice first second, before, t => first.readings before t ++ second.readings before t
  | many accepts, _, t => (stretches accepts t).reverse.map (⟨·, []⟩)
  | few accepts, _, t => (stretches accepts t).map (⟨·, []⟩)
  | repeated body, before, t => repeatedly body.readings t.length before t
  | group index body, before, t => (body.readings before t).map (Reading.keep index)

end Pattern

def keptTexts (groups : List (Nat × Span)) : List (Nat × Text) :=
  groups.map fun (index, span) => (index, span.text)

def Match.reading (found : Match) : Reading where
  text := found.toSpan.text
  kept := keptTexts found.groups

def Reading.group? (r : Reading) (index : Nat) : Option Text :=
  r.kept.lookup index

def Reading.group (r : Reading) (index : Nat) : Text :=
  (r.group? index).getD []

theorem Match.group?_reading (found : Match) (index : Nat) :
    found.reading.group? index = found.group? index := by
  have lookup_keptTexts : ∀ groups : List (Nat × Span),
      (keptTexts groups).lookup index = (groups.lookup index).map Span.text := by
    intro groups
    induction groups with
    | nil => rfl
    | cons entry groups ih =>
        obtain ⟨entryIndex, span⟩ := entry
        simp only [keptTexts, List.map_cons, List.lookup_cons] at ih ⊢
        cases index == entryIndex
        · exact ih
        · rfl
  exact lookup_keptTexts found.groups

theorem Match.group_reading (found : Match) (index : Nat) :
    found.reading.group index = found.group index := by
  rw [Reading.group, group?_reading, Match.group]

namespace Pattern

/-- `there` is where a reading from `here` leads. -/
structure Reaches (here there : Progress) (r : Reading) : Prop where
  cursor : there.cursor = here.cursor.skip r.text.length
  front : r.text <+: here.cursor.rest
  kept : keptTexts there.groups = r.kept ++ keptTexts here.groups

theorem Reaches.refl (here : Progress) : Reaches here here .nothing where
  cursor := rfl
  front := List.nil_prefix
  kept := rfl

theorem Reaches.rest {here there : Progress} {r : Reading} (h : Reaches here there r) :
    here.cursor.rest = r.text ++ there.cursor.rest ∧
      there.cursor.rest = here.cursor.rest.drop r.text.length ∧
      there.cursor.before = lastOf here.cursor.before r.text ∧
      there.cursor.position = here.cursor.position + r.text.length := by
  obtain ⟨⟨before, position, rest⟩, groups⟩ := here
  obtain ⟨s, hs⟩ := h.front
  have moved := h.cursor
  dsimp only at hs moved ⊢
  subst hs
  rw [Cursor.skip_append] at moved
  simp [moved]

theorem Reaches.trans {here mid there : Progress} {r s : Reading} (first : Reaches here mid r)
    (second : Reaches mid there s) : Reaches here there (r.append s) where
  cursor := by
    rw [second.cursor, first.cursor, Reading.append, List.length_append, Cursor.skip_add]
  front := by
    obtain ⟨rest, -, -⟩ := first.rest
    rw [rest]
    exact List.prefix_append_right_inj r.text |>.mpr second.front
  kept := by simp [second.kept, first.kept, Reading.append]

theorem Reaches.keep {here there : Progress} {r : Reading} (index : Nat) (h : Reaches here there r) :
    Reaches here { there with groups := (index, ⟨here.cursor, there.cursor⟩) :: there.groups }
      (r.keep index) where
  cursor := h.cursor
  front := h.front
  kept := by
    obtain ⟨rest, -, -, position⟩ := h.rest
    have text : Span.text ⟨here.cursor, there.cursor⟩ = r.text := by
      simp only [Span.text, Span.length, position, Nat.add_sub_cancel_left]
      rw [rest, List.take_left]
    have groups := h.kept
    simp only [keptTexts, List.map_cons, Reading.keep, List.cons_append] at groups ⊢
    rw [groups, text]

section Run

variable {β γ : Type} {φ : β → γ}

theorem findSome?_flatMap {α δ ε : Type} (l : List α) (f : α → List δ) (g : δ → Option ε) :
    (l.flatMap f).findSome? g = l.findSome? fun a => (f a).findSome? g := by
  induction l with
  | nil => rfl
  | cons a l ih =>
      rw [List.flatMap_cons, List.findSome?_append, ih, List.findSome?_cons]
      cases (f a).findSome? g <;> rfl

private theorem farthestFirst_cons (accepts : Char → Bool) (next : Cursor → Option β)
    (before : Option Char) (position : Nat) (c : Char) (rest : Text) :
    farthestFirst accepts next before position (c :: rest) =
      (if accepts c then farthestFirst accepts next (some c) (position + 1) rest else none).or
        (next ⟨before, position, c :: rest⟩) := by
  rw [farthestFirst]
  cases if accepts c then farthestFirst accepts next (some c) (position + 1) rest else none <;> rfl

private theorem nearestFirst_cons (accepts : Char → Bool) (next : Cursor → Option β)
    (before : Option Char) (position : Nat) (c : Char) (rest : Text) :
    nearestFirst accepts next before position (c :: rest) =
      (next ⟨before, position, c :: rest⟩).or
        (if accepts c then nearestFirst accepts next (some c) (position + 1) rest else none) := by
  rw [nearestFirst]
  cases next ⟨before, position, c :: rest⟩ <;> rfl

theorem map_farthestFirst (accepts : Char → Bool) (next : Cursor → Option β)
    (f : Reading → Option γ) (before : Option Char) (position : Nat) (rest : Text)
    (agree : ∀ x, x <+: rest →
      (next (Cursor.skip x.length ⟨before, position, rest⟩)).map φ = f ⟨x, []⟩) :
    (farthestFirst accepts next before position rest).map φ =
      ((stretches accepts rest).reverse.map (⟨·, []⟩)).findSome? f := by
  induction rest generalizing before position f with
  | nil =>
      have here := agree [] List.nil_prefix
      simpa [stretches, farthestFirst, Cursor.skip] using here
  | cons c rest ih =>
      have here := agree [] List.nil_prefix
      simp only [farthestFirst_cons, stretches, Option.map_or, List.reverse_cons, List.map_append,
        List.findSome?_append, List.map_cons, List.map_nil, List.findSome?_singleton]
      rw [← here, List.length_nil, Cursor.skip]
      cases accepts c with
      | false => rfl
      | true =>
          have further := ih (fun r => f ⟨c :: r.text, []⟩) (some c) (position + 1) fun x hx =>
            agree (c :: x) ((List.cons_prefix_cons).mpr ⟨rfl, hx⟩)
          simp only [if_true, further, ← List.map_reverse, List.map_map, List.findSome?_map]
          rfl

theorem map_nearestFirst (accepts : Char → Bool) (next : Cursor → Option β)
    (f : Reading → Option γ) (before : Option Char) (position : Nat) (rest : Text)
    (agree : ∀ x, x <+: rest →
      (next (Cursor.skip x.length ⟨before, position, rest⟩)).map φ = f ⟨x, []⟩) :
    (nearestFirst accepts next before position rest).map φ =
      ((stretches accepts rest).map (⟨·, []⟩)).findSome? f := by
  induction rest generalizing before position f with
  | nil =>
      have here := agree [] List.nil_prefix
      simpa [stretches, nearestFirst, Cursor.skip] using here
  | cons c rest ih =>
      have here := agree [] List.nil_prefix
      simp only [nearestFirst_cons, stretches, Option.map_or, List.map_cons, List.findSome?_cons]
      rw [← here, List.length_nil, Cursor.skip]
      cases accepts c with
      | false => cases next ⟨before, position, c :: rest⟩ <;> rfl
      | true =>
          have further := ih (fun r => f ⟨c :: r.text, []⟩) (some c) (position + 1) fun x hx =>
            agree (c :: x) ((List.cons_prefix_cons).mpr ⟨rfl, hx⟩)
          simp only [if_true, further, List.map_map, List.findSome?_map]
          cases next ⟨before, position, c :: rest⟩ <;> rfl

private theorem iterate_succ (step : Progress → (Progress → Option β) → Option β)
    (next : Progress → Option β) (rounds : Nat) (here : Progress) :
    iterate step next (rounds + 1) here =
      (step here fun there =>
        if here.cursor.position < there.cursor.position then iterate step next rounds there
        else none).or (next here) := by
  rw [iterate]
  cases step here fun there =>
    if here.cursor.position < there.cursor.position then iterate step next rounds there
    else none <;> rfl

theorem map_iterate {step : Progress → (Progress → Option β) → Option β}
    {stepReadings : Option Char → Text → List Reading}
    (simulates : ∀ (here : Progress) (next : Progress → Option β) (f : Reading → Option γ),
      (∀ there r, Reaches here there r → (next there).map φ = f r) →
        (step here next).map φ = (stepReadings here.cursor.before here.cursor.rest).findSome? f)
    (next : Progress → Option β) (f : Reading → Option γ) (rounds : Nat) (here : Progress)
    (agree : ∀ there r, Reaches here there r → (next there).map φ = f r) :
    (iterate step next rounds here).map φ =
      (repeatedly stepReadings rounds here.cursor.before here.cursor.rest).findSome? f := by
  induction rounds generalizing here f with
  | zero => simpa [iterate, repeatedly] using agree here .nothing (.refl here)
  | succ rounds ih =>
      simp only [iterate_succ, repeatedly, Option.map_or, List.findSome?_append, List.findSome?_singleton]
      rw [agree here .nothing (.refl here), findSome?_flatMap]
      congr 1
      apply simulates
      intro there r reached
      obtain ⟨-, rest, before, position⟩ := reached.rest
      have further : here.cursor.position < there.cursor.position ↔ 0 < r.text.length := by omega
      by_cases moved : 0 < r.text.length
      · rw [if_pos (further.mpr moved), if_pos moved, ih (fun s => f (r.append s)) there
          fun last s behind => agree last _ (reached.trans behind), rest, before, List.findSome?_map]
        rfl
      · rw [if_neg (mt further.mp moved), if_neg moved]
        rfl

/-- Running a pattern tries its readings in order. Whatever the continuation makes of a place may
depend only on the reading that leads there. -/
theorem map_run (p : Pattern) (here : Progress) (next : Progress → Option β)
    (f : Reading → Option γ)
    (agree : ∀ there r, Reaches here there r → (next there).map φ = f r) :
    (p.run here next).map φ = (p.readings here.cursor.before here.cursor.rest).findSome? f := by
  induction p generalizing here next f with
  | empty => simpa [run, readings] using agree here .nothing (.refl here)
  | one accepts =>
      obtain ⟨⟨before, position, rest⟩, groups⟩ := here
      cases rest with
      | nil => rfl
      | cons c rest =>
          simp only [run, readings]
          cases accepts c with
          | false => rfl
          | true =>
              have read : Reaches ⟨⟨before, position, c :: rest⟩, groups⟩
                  ⟨⟨some c, position + 1, rest⟩, groups⟩ ⟨[c], []⟩ :=
                ⟨rfl, List.prefix_append [c] rest, rfl⟩
              simpa using agree _ _ read
  | boundary =>
      have same : here.cursor.atBoundary = isEdge here.cursor.before here.cursor.rest := rfl
      rw [run, readings, same]
      cases isEdge here.cursor.before here.cursor.rest with
      | false => rfl
      | true => simpa using agree here .nothing (.refl here)
  | sequence p q ihp ihq =>
      simp only [run, readings]
      rw [findSome?_flatMap]
      apply ihp
      intro mid r first
      obtain ⟨-, rest, before, -⟩ := first.rest
      rw [ihq mid next (fun s => f (r.append s)) fun there s second => agree there _ (first.trans second),
        rest, before, List.findSome?_map]
      rfl
  | choice p q ihp ihq =>
      have either : (choice p q).run here next = (p.run here next).or (q.run here next) := by
        rw [run]
        cases p.run here next <;> rfl
      rw [either, Option.map_or, readings, List.findSome?_append, ihp here next f agree,
        ihq here next f agree]
  | many accepts =>
      obtain ⟨⟨before, position, rest⟩, groups⟩ := here
      exact map_farthestFirst accepts _ f before position rest fun x hx =>
        agree _ ⟨x, []⟩ ⟨rfl, hx, rfl⟩
  | few accepts =>
      obtain ⟨⟨before, position, rest⟩, groups⟩ := here
      exact map_nearestFirst accepts _ f before position rest fun x hx =>
        agree _ ⟨x, []⟩ ⟨rfl, hx, rfl⟩
  | repeated body ih => exact map_iterate ih next f here.cursor.rest.length here agree
  | group index body ih =>
      simp only [run, readings]
      rw [List.findSome?_map]
      exact ih here _ _ fun there r reached => agree _ _ (reached.keep index)

end Run

/-- A match begins at its cursor, ends behind what it reads, and is the first reading there. -/
theorem map_matchAt? (p : Pattern) (here : Cursor) :
    (p.matchAt? here).map (fun found => (found.start, found.stop, found.reading)) =
      (p.readings here.before here.rest).head?.map fun r => (here, here.skip r.text.length, r) := by
  have agree : ∀ (there : Progress) (r : Reading), Reaches ⟨here, []⟩ there r →
      (some (⟨⟨here, there.cursor⟩, there.groups⟩ : Match)).map
        (fun found => (found.start, found.stop, found.reading)) =
      some (here, here.skip r.text.length, r) := by
    intro there r reached
    have text : Span.text ⟨here, there.cursor⟩ = r.text :=
      congrArg Prod.snd (List.cons.inj (reached.keep 0).kept).1
    have kept : keptTexts there.groups = r.kept := by simpa [keptTexts] using reached.kept
    simp only [Option.map_some, Match.reading, text, kept]
    rw [reached.cursor]
  rw [matchAt?, map_run p ⟨here, []⟩ _ _ agree]
  cases p.readings here.before here.rest <;> rfl

end Pattern

end Pinout
