import Pinout.Pattern.Cursor

/-! # Patterns

A pattern reads characters from a cursor on. Where it can go on in several ways it tries them in a
fixed order, and the first way that lets everything after it succeed is taken.
-/

namespace Pinout

/-- A pattern over texts. -/
inductive Pattern where
  | empty
  | one (accepts : Char → Bool)
  /-- Reads nothing, between a word character and something that is none. -/
  | boundary
  | sequence (first second : Pattern)
  | choice (first second : Pattern)
  /-- Reads characters of a class, as many as possible first. -/
  | many (accepts : Char → Bool)
  /-- Reads characters of a class, as few as possible first. -/
  | few (accepts : Char → Bool)
  /-- Reads a pattern again and again, as often as possible first. -/
  | repeated (body : Pattern)
  /-- Reads a pattern and keeps what it read under a number. -/
  | group (index : Nat) (body : Pattern)

namespace Pattern

instance : Append Pattern := ⟨sequence⟩

/-- Either pattern, the left one first. -/
instance : OrElse Pattern where
  orElse first second := choice first (second ())

def optional (body : Pattern) : Pattern :=
  choice body empty

/-- Reads characters of a class, at least one and as many as possible first. -/
def atLeastOne (accepts : Char → Bool) : Pattern :=
  one accepts ++ many accepts

def char (c : Char) : Pattern :=
  one (· == c)

/-- The highest number under which the pattern keeps something, or zero. -/
def groupCount : Pattern → Nat
  | empty | one _ | boundary | many _ | few _ => 0
  | sequence first second | choice first second => max first.groupCount second.groupCount
  | repeated body => body.groupCount
  | group index body => max index body.groupCount

/-- How far a pattern has come: where it stands and what it has kept, latest first. -/
structure Progress where
  /-- Where the pattern stands. -/
  cursor : Cursor
  groups : List (Nat × Span)

/-- The first success of `next` at the cursors met while reading characters of a class, the farthest
cursor first. -/
def farthestFirst {β : Type} (accepts : Char → Bool) (next : Cursor → Option β) :
    Option Char → Nat → Text → Option β
  | before, position, [] => next ⟨before, position, []⟩
  | before, position, c :: rest =>
    let further := if accepts c then farthestFirst accepts next (some c) (position + 1) rest else none
    match further with
    | some found => some found
    | none => next ⟨before, position, c :: rest⟩

/-- The first success of `next` at the cursors met while reading characters of a class, the nearest
cursor first. -/
def nearestFirst {β : Type} (accepts : Char → Bool) (next : Cursor → Option β) :
    Option Char → Nat → Text → Option β
  | before, position, [] => next ⟨before, position, []⟩
  | before, position, c :: rest =>
    match next ⟨before, position, c :: rest⟩ with
    | some found => some found
    | none => if accepts c then nearestFirst accepts next (some c) (position + 1) rest else none

/-- Takes up to `rounds` steps that each get further and then goes on with `next`, as many steps as
possible first. -/
def iterate {β : Type} (step : Progress → (Progress → Option β) → Option β)
    (next : Progress → Option β) : (rounds : Nat) → Progress → Option β
  | 0, here => next here
  | rounds + 1, here =>
    let further := step here fun there =>
      if here.cursor.position < there.cursor.position then iterate step next rounds there else none
    match further with
    | some found => some found
    | none => next here

/-- Reads a pattern and goes on with `next`. The ways to read the pattern are tried in order until
`next` succeeds. -/
def run {β : Type} : Pattern → Progress → (Progress → Option β) → Option β
  | empty, here, next => next here
  | one accepts, ⟨⟨_, position, rest⟩, groups⟩, next =>
    match rest with
    | [] => none
    | c :: rest => if accepts c then next ⟨⟨some c, position + 1, rest⟩, groups⟩ else none
  | boundary, here, next => if here.cursor.atBoundary then next here else none
  | sequence first second, here, next => first.run here fun there => second.run there next
  | choice first second, here, next =>
    match first.run here next with
    | some found => some found
    | none => second.run here next
  | many accepts, ⟨⟨before, position, rest⟩, groups⟩, next =>
    farthestFirst accepts (fun there => next ⟨there, groups⟩) before position rest
  | few accepts, ⟨⟨before, position, rest⟩, groups⟩, next =>
    nearestFirst accepts (fun there => next ⟨there, groups⟩) before position rest
  | repeated body, here, next => iterate body.run next here.cursor.rest.length here
  | group index body, here, next =>
    body.run here fun there =>
      next { there with groups := (index, ⟨here.cursor, there.cursor⟩) :: there.groups }

section Run

variable {β : Type} (p q : Pattern) (here : Progress) (next : Progress → Option β)

@[simp] theorem run_append :
    (p ++ q).run here next = p.run here fun there => q.run there next := rfl

@[simp] theorem run_orElse :
    (p <|> q).run here next = (p.run here next).or (q.run here next) := by
  change (choice p q).run here next = _
  cases h : p.run here next <;> simp [run, h]

@[simp] theorem run_optional :
    (optional p).run here next = (p.run here next).or (next here) := by
  cases h : p.run here next <;> simp [optional, run, h]

end Run

end Pattern

end Pinout
