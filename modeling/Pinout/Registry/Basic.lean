import Pinout.Text.Order

/-! # Registries

A registry holds values under keys in order of registration. A key is written once and never
overwritten.
-/

namespace Pinout

/-- Values under keys, in order of registration. -/
structure Registry (α : Type) where
  /-- The name that error messages begin with. -/
  name : Text := "registry"
  /-- The keys with their values, oldest first. -/
  entries : List (Text × α) := []

/-- Why a registry turned a request down. -/
inductive Registry.Fault (α : Type) where
  /-- The key is taken by a value. -/
  | taken (registry key : Text) (holder : α)
  /-- The key is not among the keys, which are listed in order of code points. -/
  | unknown (registry key : Text) (available : List Text)
  deriving DecidableEq, Repr

namespace Registry

variable {α : Type}

def Fault.message (nameOf : α → Text) : Fault α → Text
  | taken registry key holder =>
    registry ++ ": key '" ++ key ++ "' already registered to " ++ nameOf holder
  | unknown registry key available =>
    registry ++ ": unknown key '" ++ key ++ "'. Available: " ++ Text.joinWith ", " available

def keys (r : Registry α) : List Text :=
  r.entries.map (·.1)

def size (r : Registry α) : Nat :=
  r.entries.length

def contains (r : Registry α) (key : Text) : Bool :=
  (r.entries.lookup key).isSome

/-- The keys in order of code points. -/
def sortedKeys (r : Registry α) : List Text :=
  Text.sorted r.keys

def get (r : Registry α) (key : Text) : Except (Fault α) α :=
  match r.entries.lookup key with
  | some value => .ok value
  | none => .error (.unknown r.name key r.sortedKeys)

/-- What `make` builds from the value under a key. -/
def create {β : Type} (r : Registry α) (key : Text) (make : α → β) : Except (Fault α) β :=
  (r.get key).map make

/-- Puts a value under a new key, behind all others. -/
def register (r : Registry α) (key : Text) (value : α) : Except (Fault α) (Registry α) :=
  match r.entries.lookup key with
  | some holder => .error (.taken r.name key holder)
  | none => .ok { r with entries := r.entries ++ [(key, value)] }

@[simp] theorem length_keys (r : Registry α) : r.keys.length = r.size := by
  simp [keys, size]

theorem contains_eq_isOk (r : Registry α) (key : Text) : r.contains key = (r.get key).isOk := by
  cases h : r.entries.lookup key <;> simp [contains, get, h, Except.isOk, Except.toBool]

theorem keys_register {r after : Registry α} {key : Text} {value : α}
    (h : r.register key value = .ok after) : after.keys = r.keys ++ [key] := by
  cases held : r.entries.lookup key with
  | some holder => simp [register, held] at h
  | none =>
    simp only [register, held, Except.ok.injEq] at h
    subst h
    simp [keys]

end Registry

end Pinout
