import Mathlib.Data.List.Forall2
import Pinout.Pattern.Search

/-! # Extraction

Declarations are extracted from the matches of a pattern one after the other. The result is there if
every match declares something; otherwise the first match that does not decides the error.
-/

namespace Pinout.Extraction

variable {α β γ ε : Type} {extract : α → Except ε β}

theorem exists_of_bind_eq_ok {answer : Except ε β} {next : β → Except ε γ} {result : γ}
    (h : answer >>= next = .ok result) : ∃ b, answer = .ok b ∧ next b = .ok result := by
  cases answer with
  | error e => cases h
  | ok b => exact ⟨b, rfl, h⟩

theorem exists_of_mapM_cons {a : α} {found : List α} {results : List β} (h : (a :: found).mapM extract = .ok results) :
    ∃ b rest, extract a = .ok b ∧ found.mapM extract = .ok rest ∧ results = b :: rest := by
  rw [List.mapM_cons] at h
  obtain ⟨b, first, h⟩ := exists_of_bind_eq_ok h
  obtain ⟨rest, more, h⟩ := exists_of_bind_eq_ok h
  cases h
  exact ⟨b, rest, first, more, rfl⟩

theorem map_eq {items : List γ} {found : List α} {declare : α → β} {declared : γ → β}
    (h : List.Forall₂ (fun item a => declare a = declared item) items found) :
    found.map declare = items.map declared := by
  induction h with
  | nil => rfl
  | cons first _ ih => rw [List.map_cons, List.map_cons, first, ih]

theorem mapM_eq_ok {items : List γ} {found : List α} {declared : γ → β}
    (h : List.Forall₂ (fun item a => extract a = .ok (declared item)) items found) :
    found.mapM extract = .ok (items.map declared) := by
  induction h with
  | nil => rfl
  | cons first _ ih =>
      rw [List.mapM_cons, first, ih]
      rfl

theorem map_mapM (found : List α) (label : β → γ) :
    (found.mapM extract).map (List.map label) = found.mapM fun a => (extract a).map label := by
  induction found with
  | nil => rfl
  | cons a found ih =>
      rw [List.mapM_cons, List.mapM_cons, ← ih]
      cases extract a with
      | error e => rfl
      | ok b => cases found.mapM extract <;> rfl

theorem mapM_congr {items : List γ} {found : List α} {expected : γ → Except ε β}
    (h : List.Forall₂ (fun item a => extract a = expected item) items found) :
    found.mapM extract = items.mapM expected := by
  induction h with
  | nil => rfl
  | cons first _ ih => rw [List.mapM_cons, List.mapM_cons, first, ih]

/-- Two answers that fail with the same error, or are both there and related. -/
inductive Alike (R : β → γ → Prop) : Except ε β → Except ε γ → Prop
  | error (e : ε) : Alike R (.error e) (.error e)
  | ok {b : β} {c : γ} (related : R b c) : Alike R (.ok b) (.ok c)

theorem Alike.refl {R : β → β → Prop} (same : ∀ b, R b b) (answer : Except ε β) : Alike R answer answer := by
  cases answer with
  | error e => exact .error e
  | ok b => exact .ok (same b)

/-- Items that are extracted alike give answers that are alike. -/
theorem alike_mapM {δ : Type} {extract' : γ → Except ε δ} {R : β → δ → Prop} {found : List α} {found' : List γ}
    (h : List.Forall₂ (fun a c => Alike R (extract a) (extract' c)) found found') :
    Alike (List.Forall₂ R) (found.mapM extract) (found'.mapM extract') := by
  induction h with
  | nil => exact .ok .nil
  | @cons a c found found' first _ ih =>
      rw [List.mapM_cons, List.mapM_cons]
      generalize extract a = answer at first ⊢
      generalize extract' c = answer' at first ⊢
      cases first with
      | error e => exact .error e
      | ok related =>
          generalize found.mapM extract = rest at ih ⊢
          generalize found'.mapM extract' = rest' at ih ⊢
          cases ih with
          | error e => exact .error e
          | ok more => exact .ok (.cons related more)

theorem mem_of_mapM_eq_ok {found : List α} {results : List β} (h : found.mapM extract = .ok results) {b : β}
    (hb : b ∈ results) : ∃ a ∈ found, extract a = .ok b := by
  induction found generalizing results with
  | nil =>
      cases h
      cases hb
  | cons a found ih =>
      obtain ⟨b', rest, first, more, rfl⟩ := exists_of_mapM_cons h
      rcases List.mem_cons.mp hb with rfl | hb
      · exact ⟨a, by simp, first⟩
      · obtain ⟨a', ha, same⟩ := ih more hb
        exact ⟨a', List.mem_cons_of_mem a ha, same⟩

theorem map_eq_of_mapM_eq_ok {found : List α} {results : List β} (h : found.mapM extract = .ok results)
    {label : β → γ} {key : α → γ} (same : ∀ a ∈ found, ∀ b, extract a = .ok b → label b = key a) :
    results.map label = found.map key := by
  induction found generalizing results with
  | nil =>
      cases h
      rfl
  | cons a found ih =>
      obtain ⟨b, rest, first, more, rfl⟩ := exists_of_mapM_cons h
      have behind := ih more fun a ha => same a (List.mem_cons_of_mem _ ha)
      rw [List.map_cons, List.map_cons, behind, same a List.mem_cons_self b first]

/-- An answer fails with the error if there is one, and otherwise is there. -/
def FailsWith (error? : Option ε) (answer : Except ε β) : Prop :=
  match error? with
  | some e => answer = .error e
  | none => ∃ result, answer = .ok result

namespace FailsWith

variable {error? : Option ε} {answer : Except ε β} {e : ε}

theorem ok (result : β) : FailsWith none (.ok result : Except ε β) :=
  ⟨result, rfl⟩

theorem eq_error_iff (h : FailsWith error? answer) : answer = .error e ↔ error? = some e := by
  cases error? with
  | none =>
      obtain ⟨result, rfl⟩ := h
      simp
  | some e' =>
      obtain rfl := h
      simp

theorem bind {next : β → Except ε γ} (h : FailsWith error? answer)
    (rest : error? = none → ∀ result, FailsWith none (next result)) : FailsWith error? (answer >>= next) := by
  cases error? with
  | none =>
      obtain ⟨result, rfl⟩ := h
      exact rest rfl result
  | some e =>
      obtain rfl := h
      rfl

theorem map (h : FailsWith error? answer) (make : β → γ) :
    FailsWith error? (do return make (← answer)) :=
  h.bind fun _ result => .ok (make result)

/-- The first item that fails decides. -/
theorem mapM {error? : α → Option ε} {items : List α}
    (h : ∀ item ∈ items, FailsWith (error? item) (extract item)) :
    FailsWith (items.findSome? error?) (items.mapM extract) := by
  induction items with
  | nil => exact .ok []
  | cons item items ih =>
      have first := h item (by simp)
      have rest := ih fun item hi => h item (by simp [hi])
      rw [List.mapM_cons, List.findSome?_cons]
      cases failure : error? item with
      | some e =>
          rw [failure] at first
          exact first.bind nofun
      | none =>
          rw [failure] at first
          obtain ⟨result, same⟩ := first
          rw [same]
          exact rest.map (result :: ·)

end FailsWith

end Pinout.Extraction
