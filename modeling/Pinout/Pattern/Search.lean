import Pinout.Pattern.Basic

/-! # Searching a text

A search goes through a text from left to right. After a match it goes on behind what the match
read, so the matches of a text never overlap.
-/

namespace Pinout

/-- Where a pattern was found and what it kept. -/
structure Match extends Span where
  /-- What the pattern kept, by number, latest first. -/
  groups : List (Nat × Span)

namespace Match

/-- What the pattern kept under a number. -/
def group? (found : Match) (index : Nat) : Option Text :=
  (found.groups.lookup index).map Span.text

/-- What the pattern kept under a number, or nothing. -/
def group (found : Match) (index : Nat) : Text :=
  (found.group? index).getD []

end Match

namespace Pattern

def matchAt? (p : Pattern) (here : Cursor) : Option Match :=
  p.run ⟨here, []⟩ fun there => some { start := here, stop := there.cursor, groups := there.groups }

/-- The first match at the cursor or behind it. -/
def find? (p : Pattern) (here : Cursor) : Option Match :=
  go here.before here.position here.rest
where
  go : Option Char → Nat → Text → Option Match
    | before, position, [] => p.matchAt? ⟨before, position, []⟩
    | before, position, c :: rest =>
      match p.matchAt? ⟨before, position, c :: rest⟩ with
      | some found => some found
      | none => go (some c) (position + 1) rest

def search? (p : Pattern) (t : Text) : Option Match :=
  p.find? (.start t)

/-- The matches in a text, from left to right. -/
def findAll (p : Pattern) (t : Text) : List Match :=
  go 0 none 0 t
where
  /-- Passes over `skip` characters, the rest of the last match, and goes on with the search. -/
  go : (skip : Nat) → Option Char → Nat → Text → List Match
    | skip + 1, _, position, c :: rest => go skip (some c) (position + 1) rest
    | 0, before, position, c :: rest =>
      match p.matchAt? ⟨before, position, c :: rest⟩ with
      | some found => found :: go (found.length - 1) (some c) (position + 1) rest
      | none => go 0 (some c) (position + 1) rest
    | _ + 1, _, _, [] => []
    | 0, before, position, [] => (p.matchAt? ⟨before, position, []⟩).toList

def replaceAll (p : Pattern) (replacement : Text → Text) (t : Text) : Text :=
  go 0 none 0 t
where
  /-- Leaves out `skip` characters, the rest of the last match, and goes on with the search. -/
  go : (skip : Nat) → Option Char → Nat → Text → Text
    | skip + 1, _, position, c :: rest => go skip (some c) (position + 1) rest
    | 0, before, position, c :: rest =>
      match p.matchAt? ⟨before, position, c :: rest⟩ with
      | some found => replacement found.text ++ go (found.length - 1) (some c) (position + 1) rest
      | none => c :: go 0 (some c) (position + 1) rest
    | _, _, _, [] => []

end Pattern

end Pinout
