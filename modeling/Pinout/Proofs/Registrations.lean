import Mathlib.Data.List.Induction
import Mathlib.Data.List.Nodup
import Pinout.Dialect
import Pinout.Registry.Session

/-! # Registrations of a session

All that a session answers and holds is told by the steps that it has taken. The first application of a registration
under a key puts its value there, behind all keys that are there already; every later one is turned down. A step that
is turned down changes nothing. A key is a text, so a dialect that serves as a key is the same key as its tag.
-/

namespace Pinout.Registry

variable {α : Type} {s : Session α} {past : List (Step α)} {name key : Text} {value holder : α}

namespace Session

/-- What `find` picks out of each step of a run, given the steps in front of it. The run goes on after `past`. -/
def collect {β : Type} (find : List (Step α) → Step α → Option β) : List (Step α) → List (Step α) → List β
  | _, [] => []
  | past, request :: rest => (find past request).toList ++ collect find (past ++ [request]) rest

/-- The slots that some steps filled with the keys they put there, latest first. -/
def slots (steps : List (Step α)) : List (Text × Text) :=
  (steps.filterMap fun
    | .prepare key slot => some (slot, key)
    | _ => none).reverse

/-- The key and the value that a step applies, whether the key is free or not. -/
def applied? (past : List (Step α)) : Step α → Option (Text × α)
  | .register key value => some (key, value)
  | .apply slot value => ((slots past).lookup slot).map (·, value)
  | _ => none

/-- The keys and values that some steps applied, in order. -/
def applications (steps : List (Step α)) : List (Text × α) :=
  collect applied? [] steps

/-- The key and the value that a step applies, if no step in front of it applied a value to the key. -/
def first? (past : List (Step α)) (request : Step α) : Option (Text × α) :=
  (applied? past request).filter fun a => ((applications past).lookup a.1).isNone

def firsts (steps : List (Step α)) : List (Text × α) :=
  collect first? [] steps

/-- The answer to an application of a value to a key. -/
def toldApplication (name : Text) (past : List (Step α)) (key : Text) (value : α) : Answer α :=
  match (applications past).lookup key with
  | some holder => .fault (.taken name key holder)
  | none => .registered value

/-- The value that was applied to a key first, or the fault that tells all keys there are. -/
def firstHolder (name : Text) (past : List (Step α)) (key : Text) : Except (Fault α) α :=
  match (applications past).lookup key with
  | some holder => .ok holder
  | none => .error (.unknown name key (Text.sorted ((firsts past).map (·.1))))

/-- The answer to a request for a key. -/
def toldHolder (name : Text) (past : List (Step α)) (key : Text) (answer : α → Answer α) : Answer α :=
  match firstHolder name past key with
  | .ok holder => answer holder
  | .error fault => .fault fault

/-- The answer to a step, told by the steps in front of it. -/
def told (name : Text) (past : List (Step α)) : Step α → Answer α
  | .register key value => toldApplication name past key value
  | .prepare _ _ => .prepared
  | .apply slot value =>
    match (slots past).lookup slot with
    | some key => toldApplication name past key value
    | none => .emptySlot slot
  | .get key => toldHolder name past key .value
  | .create key => toldHolder name past key .created
  | .contains key => .truth ((applications past).lookup key).isSome
  | .keys => .keys ((firsts past).map (·.1))
  | .size => .size (firsts past).length

theorem collect_append {β : Type} (find : List (Step α) → Step α → Option β) (past steps rest : List (Step α)) :
    collect find past (steps ++ rest) = collect find past steps ++ collect find (past ++ steps) rest := by
  induction steps generalizing past with
  | nil => rw [List.append_nil]; rfl
  | cons request steps ih => simp only [List.cons_append, collect, ih, List.append_assoc, List.nil_append]

theorem applications_concat (past : List (Step α)) (request : Step α) :
    applications (past ++ [request]) = applications past ++ (applied? past request).toList := by
  rw [applications, collect_append, collect, collect, List.append_nil]
  rfl

theorem firsts_concat (past : List (Step α)) (request : Step α) :
    firsts (past ++ [request]) = firsts past ++ (first? past request).toList := by
  rw [firsts, collect_append, collect, collect, List.append_nil]
  rfl

theorem first?_eq_none_of_taken {request : Step α} (applied : applied? past request = some (key, value))
    (taken : (applications past).lookup key = some holder) : first? past request = none := by
  rw [first?, applied, Option.filter_some, taken]
  rfl

theorem first?_eq_some_of_free {request : Step α} (applied : applied? past request = some (key, value))
    (free : (applications past).lookup key = none) : first? past request = some (key, value) := by
  rw [first?, applied, Option.filter_some, free]
  rfl

theorem firstHolder_eq_ok_iff : firstHolder name past key = .ok holder ↔ (applications past).lookup key = some holder := by
  rw [firstHolder]
  cases (applications past).lookup key <;> simp

theorem lookup_firsts (past : List (Step α)) (key : Text) : (firsts past).lookup key = (applications past).lookup key := by
  induction past using List.reverseRecOn with
  | nil => rfl
  | append_singleton past request ih =>
      rw [firsts_concat, applications_concat, List.lookup_append, List.lookup_append, ih]
      cases applied : applied? past request with
      | none => simp [first?, applied]
      | some a =>
          obtain ⟨other, value⟩ := a
          cases taken : (applications past).lookup other with
          | none => rw [first?_eq_some_of_free applied taken]
          | some holder =>
              rw [first?_eq_none_of_taken applied taken]
              by_cases same : key = other
              · subst same
                simp [taken]
              · simp [List.lookup_cons, beq_eq_false_iff_ne.mpr same]

theorem nodup_firsts (past : List (Step α)) : ((firsts past).map (·.1)).Nodup := by
  induction past using List.reverseRecOn with
  | nil => exact .nil
  | append_singleton past request ih =>
      rw [firsts_concat, List.map_append]
      cases first : first? past request with
      | none => simpa using ih
      | some a =>
          obtain ⟨applied, free⟩ := Option.filter_eq_some_iff.mp first
          rw [← lookup_firsts, Option.isNone_iff_eq_none, List.lookup_eq_none_iff] at free
          have absent : a.1 ∉ (firsts past).map (·.1) := by
            intro inside
            obtain ⟨b, hb, same⟩ := List.mem_map.mp inside
            exact bne_iff_ne.mp (free b hb) same.symm
          exact List.concat_eq_append ▸ List.Nodup.concat absent ih

def fresh (name : Text) : Session α where
  registry := { name }

def after (s : Session α) (steps : List (Step α)) : Session α :=
  steps.foldl (fun s request => (s.step request).2) s

/-- The session recalls the steps it has taken. -/
structure Recalls (name : Text) (past : List (Step α)) (s : Session α) : Prop where
  named : s.registry.name = name
  entries : s.registry.entries = firsts past
  prepared : s.prepared = slots past

theorem recalls_fresh (name : Text) : (fresh name : Session α).Recalls name [] where
  named := rfl
  entries := rfl
  prepared := rfl

namespace Recalls

theorem lookup (h : s.Recalls name past) (key : Text) : s.registry.entries.lookup key = (applications past).lookup key := by
  rw [h.entries, lookup_firsts]

theorem registry_eq (h : s.Recalls name past) : s.registry = { name, entries := firsts past } := by
  rw [← h.named, ← h.entries]

theorem keys (h : s.Recalls name past) : s.registry.keys = (firsts past).map (·.1) := by
  rw [Registry.keys, h.entries]

theorem size (h : s.Recalls name past) : s.registry.size = (firsts past).length := by
  rw [Registry.size, h.entries]

theorem get (h : s.Recalls name past) (key : Text) : s.registry.get key = firstHolder name past key := by
  cases held : (applications past).lookup key with
  | some holder => simp only [Registry.get, firstHolder, h.lookup, held]
  | none => simp only [Registry.get, firstHolder, h.lookup, held, sortedKeys, h.keys, h.named]

theorem kept {request : Step α} {next : Session α} (h : s.Recalls name past) (none : first? past request = none)
    (registry : next.registry = s.registry) (prepared : next.prepared = slots (past ++ [request])) :
    next.Recalls name (past ++ [request]) where
  named := by rw [registry, h.named]
  entries := by rw [registry, h.entries, firsts_concat, none, Option.toList_none, List.append_nil]
  prepared := prepared

/-- An application puts its value behind all others if the key is free, and else it is turned down. -/
theorem register {request : Step α} (h : s.Recalls name past) (applied : applied? past request = some (key, value))
    (filled : slots (past ++ [request]) = slots past) :
    ∃ next, s.register key value = (toldApplication name past key value, next) ∧ next.Recalls name (past ++ [request]) := by
  rw [toldApplication]
  cases taken : (applications past).lookup key with
  | some holder =>
      have refused : s.register key value = (.fault (.taken name key holder), s) := by
        rw [Session.register, Registry.register, h.lookup, taken, h.named]
      exact ⟨s, refused, h.kept (first?_eq_none_of_taken applied taken) rfl (h.prepared.trans filled.symm)⟩
  | none =>
      refine ⟨{ s with registry := { s.registry with entries := s.registry.entries ++ [(key, value)] } }, ?_, h.named, ?_,
        h.prepared.trans filled.symm⟩
      · rw [Session.register, Registry.register, h.lookup, taken]
      · rw [firsts_concat, first?_eq_some_of_free applied taken, ← h.entries]
        rfl

theorem asked {request : Step α} (h : s.Recalls name past) (nothing : applied? past request = none)
    (filled : slots (past ++ [request]) = slots past) (answer : s.step request = (told name past request, s)) :
    ∃ next, s.step request = (told name past request, next) ∧ next.Recalls name (past ++ [request]) :=
  ⟨s, answer, h.kept (by rw [first?, nothing]; rfl) rfl (h.prepared.trans filled.symm)⟩

/-- Each step is answered as the steps in front of it tell, and is recalled from then on. -/
theorem step (h : s.Recalls name past) (request : Step α) :
    ∃ next, s.step request = (told name past request, next) ∧ next.Recalls name (past ++ [request]) := by
  cases request with
  | register key value => exact h.register rfl (by simp [slots])
  | prepare key slot => exact ⟨_, rfl, h.kept rfl rfl (by simp [slots, h.prepared])⟩
  | apply slot value =>
      have filled : slots (past ++ [.apply slot value]) = slots past := by simp [slots]
      cases found : (slots past).lookup slot with
      | none => exact h.asked (by simp [applied?, found]) filled (by simp [Session.step, told, h.prepared, found])
      | some key =>
          have applied : applied? past (.apply slot value) = some (key, value) := by simp [applied?, found]
          have registered := h.register applied filled
          simpa [Session.step, told, h.prepared, found] using registered
  | get key =>
      refine h.asked rfl (by simp [slots]) ?_
      rw [Session.step, told, toldHolder, h.get]
      cases firstHolder name past key <;> rfl
  | create key =>
      refine h.asked rfl (by simp [slots]) ?_
      rw [Session.step, told, toldHolder, create, h.get]
      cases firstHolder name past key <;> rfl
  | contains key =>
      exact h.asked rfl (by simp [slots]) (by rw [Session.step, told, Registry.contains, h.lookup])
  | keys => exact h.asked rfl (by simp [slots]) (by rw [Session.step, told, h.keys])
  | size => exact h.asked rfl (by simp [slots]) (by rw [Session.step, told, h.size])

end Recalls

theorem after_concat (s : Session α) (steps : List (Step α)) (request : Step α) :
    s.after (steps ++ [request]) = ((s.after steps).step request).2 :=
  List.foldl_concat ..

/-- A session recalls all steps that it takes. -/
theorem recalls_after (name : Text) (steps : List (Step α)) : ((fresh name).after steps).Recalls name steps := by
  induction steps using List.reverseRecOn with
  | nil => exact recalls_fresh name
  | append_singleton steps request ih =>
      obtain ⟨next, taken, recalls⟩ := ih.step request
      rw [after_concat, taken]
      exact recalls

theorem run_concat (s : Session α) (steps : List (Step α)) (request : Step α) :
    s.run (steps ++ [request]) =
      s.run steps ++ [(((s.after steps).step request).1, (s.after (steps ++ [request])).registry.size)] := by
  induction steps generalizing s with
  | nil => rfl
  | cons first steps ih => exact congrArg (_ :: ·) (ih _)

/-- The answers that turn a step down. -/
inductive TurnsDown : Answer α → Prop
  | fault (fault : Fault α) : TurnsDown (.fault fault)
  | emptySlot (slot : Text) : TurnsDown (.emptySlot slot)

theorem register_of_turnsDown (h : TurnsDown (s.register key value).1) : (s.register key value).2 = s := by
  unfold Session.register at h ⊢
  cases registered : s.registry.register key value with
  | error fault => rfl
  | ok registry =>
      rw [registered] at h
      cases h

theorem step_of_turnsDown {request : Step α} (h : TurnsDown (s.step request).1) : (s.step request).2 = s := by
  cases request with
  | register key value => exact register_of_turnsDown h
  | prepare key slot => cases h
  | apply slot value =>
      rw [step] at h ⊢
      cases found : s.prepared.lookup slot with
      | none => rfl
      | some key =>
          rw [found] at h
          exact register_of_turnsDown h
  | get key =>
      rw [step]
      cases s.registry.get key <;> rfl
  | create key =>
      rw [step]
      cases s.registry.create key Answer.created <;> rfl
  | contains key | keys | size => rfl

theorem told_of_applied {request : Step α} (applied : applied? past request = some (key, value)) :
    told name past request = toldApplication name past key value := by
  cases request with
  | register key' value' =>
      cases applied
      rfl
  | apply slot value' =>
      obtain ⟨key', found, same⟩ := Option.map_eq_some_iff.mp applied
      cases same
      rw [told, found]
  | prepare | get | create | contains | keys | size => cases applied

/-- The registry holds the first application to each key, in order, and tells it in every answer. -/
structure HoldsFirsts (name : Text) (past : List (Step α)) (r : Registry α) : Prop where
  keys : r.keys = (firsts past).map (·.1)
  nodup : r.keys.Nodup
  size : r.size = (firsts past).length
  sorted : r.sortedKeys.Perm r.keys ∧ r.sortedKeys.Pairwise fun s t => Text.precedes s t = true
  get : ∀ key, r.get key = firstHolder name past key
  create : ∀ (β : Type) (make : α → β) key, r.create key make = (firstHolder name past key).map make
  contains : ∀ key, r.contains key ↔ ∃ value, r.get key = .ok value

theorem Recalls.holdsFirsts (h : s.Recalls name past) : HoldsFirsts name past s.registry where
  keys := h.keys
  nodup := h.keys ▸ nodup_firsts past
  size := h.size
  sorted := ⟨List.mergeSort_perm .., Text.pairwise_sorted _⟩
  get := h.get
  create β make key := by rw [create, h.get]
  contains key := by
    rw [contains_eq_isOk]
    cases s.registry.get key <;> simp [Except.isOk, Except.toBool]

/-- Whatever a fresh session did before, its registry holds the first application to each key, in order, and its next
answer tells the same. A registration under a key that is taken is turned down with the value that has the key, and any
other one puts its value behind all others. No other step changes the registry, and a step that is turned down changes
nothing. -/
theorem run_firsts (name : Text) (past : List (Step α)) (request : Step α) :
    let s := (fresh name).after past
    let next := (fresh name).after (past ++ [request])
    (fresh name).run (past ++ [request]) = (fresh name).run past ++ [(told name past request, next.registry.size)] ∧
      HoldsFirsts name past s.registry ∧
      (∀ key value, applied? past request = some (key, value) →
        (∀ holder, s.registry.get key = .ok holder → told name past request = .fault (.taken name key holder)) ∧
        (s.registry.contains key = false → told name past request = .registered value ∧
          next.registry.keys = s.registry.keys ++ [key] ∧ next.registry.get key = .ok value)) ∧
      (applied? past request = none → next.registry = s.registry) ∧
      (TurnsDown (told name past request) → next = s) := by
  intro s next
  have recalls : s.Recalls name past := recalls_after name past
  have recalled : next.Recalls name (past ++ [request]) := recalls_after name (past ++ [request])
  have moved : next = (s.step request).2 := after_concat ..
  have answered : (s.step request).1 = told name past request := by
    obtain ⟨following, taken, -⟩ := recalls.step request
    rw [taken]
  refine ⟨?_, recalls.holdsFirsts, fun key value applied => ⟨fun holder held => ?_, fun vacant => ?_⟩, fun nothing => ?_,
    fun down => ?_⟩
  · rw [run_concat, answered]
  · rw [recalls.get, firstHolder_eq_ok_iff] at held
    rw [told_of_applied applied, toldApplication, held]
  · have free : (applications past).lookup key = none := by
      rwa [contains, recalls.lookup, Option.isSome_eq_false_iff, Option.isNone_iff_eq_none] at vacant
    have first := first?_eq_some_of_free applied free
    refine ⟨by rw [told_of_applied applied, toldApplication, free], ?_, ?_⟩
    · rw [recalled.keys, recalls.keys, firsts_concat, first]
      simp
    · rw [recalled.get, firstHolder_eq_ok_iff, applications_concat, applied, List.lookup_append, free]
      simp
  · rw [recalled.registry_eq, recalls.registry_eq, firsts_concat, first?, nothing]
    simp
  · rw [moved]
    exact step_of_turnsDown (answered ▸ down)

/-- Two registrations under one key wait in slots, one by the dialect and one by its tag. The one that is applied later
is turned down with the value of the other, which the key keeps. -/
theorem run_firsts_dialect :
    let past : List (Step Text) := [.prepare Dialect.vhdl.tag "a", .prepare "vhdl" "b", .apply "b" "Parser"]
    let later : Step Text := .apply "a" "Other"
    ∃ earlier, (fresh "parser").run (past ++ [later]) =
        earlier ++ [(.fault (.taken "parser" "vhdl" "Parser"), 1)] ∧
      applied? past later = some (Dialect.vhdl.tag, "Other".toList) ∧
      (fresh "parser").after (past ++ [later]) = (fresh "parser").after past ∧
      ((fresh "parser").after past).registry.get Dialect.vhdl.tag = .ok "Parser" := by
  intro past later
  obtain ⟨run, holds, registers, -, turned⟩ := run_firsts "parser" past later
  have applied : applied? past later = some (Dialect.vhdl.tag, "Other".toList) := rfl
  have held : ((fresh "parser").after past).registry.get Dialect.vhdl.tag = .ok "Parser" := holds.get _
  have refused : told "parser" past later = .fault (.taken "parser" "vhdl" "Parser") := (registers _ _ applied).1 _ held
  exact ⟨_, refused ▸ run, applied, turned (refused ▸ .fault _), held⟩

end Session

end Pinout.Registry
