import Pinout.Registry.Basic

/-! # Sessions on a registry

A session takes steps on one registry. A registration may be prepared first and applied later; the
key is checked when it is applied.
-/

namespace Pinout.Registry

/-- A registry with the registrations that are prepared in its slots. -/
structure Session (α : Type) where
  registry : Registry α
  /-- The keys of the prepared registrations by slot, latest first. -/
  prepared : List (Text × Text) := []

/-- A request to a session. -/
inductive Step (α : Type) where
  | register (key : Text) (value : α)
  /-- Keeps a registration under a key in a slot. -/
  | prepare (key slot : Text)
  /-- Puts a value under the key kept in a slot. -/
  | apply (slot : Text) (value : α)
  | get (key : Text)
  | create (key : Text)
  | contains (key : Text)
  | keys
  | size

/-- The answer to a step. -/
inductive Answer (α : Type) where
  | registered (value : α)
  | prepared
  | value (value : α)
  | created (value : α)
  | truth (holds : Bool)
  | keys (keys : List Text)
  | size (count : Nat)
  /-- The step was turned down. -/
  | fault (fault : Fault α)
  /-- The slot holds nothing. -/
  | emptySlot (slot : Text)

namespace Session

variable {α : Type}

def register (s : Session α) (key : Text) (value : α) : Answer α × Session α :=
  match s.registry.register key value with
  | .ok registry => (.registered value, { s with registry })
  | .error fault => (.fault fault, s)

def step (s : Session α) : Step α → Answer α × Session α
  | .register key value => s.register key value
  | .prepare key slot => (.prepared, { s with prepared := (slot, key) :: s.prepared })
  | .apply slot value =>
    match s.prepared.lookup slot with
    | some key => s.register key value
    | none => (.emptySlot slot, s)
  | .get key =>
    match s.registry.get key with
    | .ok value => (.value value, s)
    | .error fault => (.fault fault, s)
  | .create key =>
    match s.registry.create key Answer.created with
    | .ok answer => (answer, s)
    | .error fault => (.fault fault, s)
  | .contains key => (.truth (s.registry.contains key), s)
  | .keys => (.keys s.registry.keys, s)
  | .size => (.size s.registry.size, s)

/-- Takes steps one after another. Each answer comes with the number of keys after its step. -/
def run : Session α → List (Step α) → List (Answer α × Nat)
  | _, [] => []
  | s, request :: rest =>
    let (answer, s) := s.step request
    (answer, s.registry.size) :: run s rest

end Session

end Pinout.Registry
