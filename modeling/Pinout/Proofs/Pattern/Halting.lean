import Pinout.Proofs.Pattern.Found

/-! # Places that no reading passes

Some patterns read past a character only where something in front of it is left open. In a text that leaves
nothing open the character is a cut: each reading in front of it is there whatever follows, and a search
of a longer text finds first what it finds up to there.
-/

namespace Pinout.Pattern

variable {p q : Pattern} {before before' : Option Char} {c opening closing : Char} {s t x y : Text}
  {fits : Text → Prop}

/-- In a text that fits, no reading gets as far as the character, and none depends on what is behind it. -/
structure HaltsAt (p : Pattern) (c : Char) (fits : Text → Prop) : Prop where
  /-- A reading ends in front of the character. -/
  inside : ∀ {before x s}, fits x → ∀ a ∈ p.readings before (x ++ c :: s), a.text <+: x
  /-- The readings are the same without what is behind the character. -/
  same : ∀ {before x s}, fits x → p.readings before (x ++ c :: s) = p.readings before (x ++ [c])

theorem haltsAt_of_never (never : p.mayRead c = false) : p.HaltsAt c fits where
  inside _ _ ha := front_of_stopped (stops_cons.mpr never) ha
  same _ := endsAt_of_never never _ _ _

/-- What fits goes on fitting from any place on. -/
def ClosedBehind (fits : Text → Prop) : Prop :=
  ∀ x y, fits (x ++ y) → fits y

theorem HaltsAt.append (closed : ClosedBehind fits) (first : p.HaltsAt c fits) (second : q.HaltsAt c fits) :
    (p ++ q).HaltsAt c fits where
  inside := by
    intro before x s fit a ha
    obtain ⟨b, hb, r, split, d, hd, rfl⟩ := exists_of_mem_append ha
    obtain ⟨y, rfl⟩ := first.inside fit b hb
    rw [List.append_assoc, List.append_cancel_left_eq] at split
    subst split
    exact (List.prefix_append_right_inj b.text).mpr (second.inside (closed _ _ fit) d hd)
  same := by
    intro before x s fit
    rw [readings_append, readings_append, first.same fit]
    refine List.flatMap_congr fun b hb => ?_
    obtain ⟨y, rfl⟩ := first.inside fit b hb
    rw [List.append_assoc, List.append_assoc, List.drop_left, List.drop_left, second.same (closed _ _ fit)]

theorem HaltsAt.optional (h : p.HaltsAt c fits) : (optional p).HaltsAt c fits where
  inside := by
    intro before x s fit a ha
    rcases List.mem_append.mp ha with ha | ha
    · exact h.inside fit a ha
    · obtain rfl := List.mem_singleton.mp ha
      exact List.nil_prefix
  same := by
    intro before x s fit
    rw [Pattern.optional, readings, readings, h.same fit]
    rfl

theorem HaltsAt.congr (h : q.HaltsAt c fits) (same : ∀ before t, p.readings before t = q.readings before t) :
    p.HaltsAt c fits where
  inside fit a ha := h.inside fit a (same _ _ ▸ ha)
  same fit := by rw [same, same, h.same fit]

/-- The last bracket of the text, if there is one, does not open. -/
def ClosesLast (opening closing : Char) (t : Text) : Prop :=
  (t.filter fun d => d == opening || d == closing).getLast? ≠ some opening

instance : Decidable (ClosesLast opening closing t) :=
  inferInstanceAs (Decidable (_ ≠ _))

theorem closedBehind_closesLast : ClosedBehind (ClosesLast opening closing) := by
  intro x y closes open'
  refine closes ?_
  rw [List.filter_append, List.getLast?_append, open']
  rfl

theorem ClosesLast.of_append (h : ClosesLast opening closing (x ++ y)) (plain : ∀ d ∈ y, d ≠ opening ∧ d ≠ closing) :
    ClosesLast opening closing x := by
  have nothing : y.filter (fun d => d == opening || d == closing) = [] :=
    List.filter_eq_nil_iff.mpr fun d hd => by simp [plain d hd]
  rwa [ClosesLast, List.filter_append, nothing, List.append_nil] at h

theorem ClosesLast.not_mem (h : ClosesLast opening closing t) (unclosed : closing ∉ t) : opening ∉ t := by
  intro opened
  have bracket : opening ∈ t.filter fun d => d == opening || d == closing :=
    List.mem_filter.mpr ⟨opened, by simp⟩
  obtain ⟨d, last⟩ := List.getLast?_isSome.mpr (List.ne_nil_of_mem bracket) |> Option.isSome_iff_exists.mp
  obtain ⟨inside, kind⟩ := List.mem_filter.mp (List.mem_of_getLast? last)
  rw [Bool.or_eq_true, beq_iff_eq, beq_iff_eq] at kind
  rcases kind with rfl | rfl
  · exact h last
  · exact unclosed inside

/-- What stands in brackets is read up to the closing bracket, so that only an open bracket lets a reading pass. -/
theorem haltsAt_bracketed (different : opening ≠ closing) (other : c ≠ opening) (never : p.mayRead closing = false) :
    (char opening ++ p ++ char closing).HaltsAt c (ClosesLast opening closing) := by
  have ends : (char opening ++ p ++ char closing).EndsAt closing :=
    endsAt_append_char (by simpa [char, mayRead, never] using different.symm)
  have refuses : ∀ {before x s}, opening ∉ x → (char opening ++ p ++ char closing).Refuses before (x ++ c :: s) := by
    intro before x s absent
    refine refuses_of_stops (by simp [char, nullable]) ?_
    cases x with
    | nil => exact stops_cons.mpr (by simpa [char, opens, nullable] using other)
    | cons d x =>
        refine stops_cons.mpr ?_
        rw [List.mem_cons, not_or] at absent
        simpa [char, opens, nullable] using Ne.symm absent.1
  constructor
  · intro before x s closes a ha
    by_cases closed : closing ∈ x
    · rw [ends.readings_append closed] at ha
      exact front_of_mem ha
    · exact absurd ha (refuses_iff.mp (refuses (closes.not_mem closed)) a)
  · intro before x s closes
    by_cases closed : closing ∈ x
    · rw [ends.readings_append closed, ends.readings_append closed]
    · exact (refuses (closes.not_mem closed)).trans (refuses (closes.not_mem closed)).symm

theorem scan_behind (reads : p.nullable = false) (front : before.any Text.isWord = before'.any Text.isWord) (t : Text) :
    p.scan before t = p.scan before' t := by
  cases t with
  | nil => rw [scan_nil reads, scan_nil reads]
  | cons c t => rw [scan, scan, scan.go, scan.go, readings_behind front]

theorem scan_anywhere (reads : p.nullable = false) (blind : p.looksBehind = false) (before before' : Option Char)
    (t : Text) : p.scan before t = p.scan before' t := by
  cases t with
  | nil => rw [scan_nil reads, scan_nil reads]
  | cons c t => rw [scan, scan, scan.go, scan.go, readings_anywhere blind before before']

theorem map_reading_search? (reads : p.nullable = false) (t : Text) :
    (p.search? t).map Match.reading = (p.scan none t).head? := by
  cases search : p.search? t with
  | none =>
      rw [scan_eq_nil_of_quiet reads (quiet_of_find?_eq_none search)]
      rfl
  | some found =>
      obtain ⟨u, s, rfl, quiet, takes, -⟩ := exists_of_find? reads search
      rw [scan_of_quiet quiet, scan_of_takes takes (takes.ne_nil reads)]
      rfl

end Pinout.Pattern
