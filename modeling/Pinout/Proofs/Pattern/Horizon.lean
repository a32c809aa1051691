import Pinout.Proofs.Pattern.Locality

/-! # Horizons

A pattern sees no further than the first character that it cannot read. Up to there it has the same
readings in the same order whatever follows, so a search may be cut in two at such a character.
-/

namespace Pinout

namespace Cursor

theorem position_le_skip (count : Nat) (here : Cursor) : here.position ≤ (here.skip count).position := by
  induction count generalizing here with
  | zero => exact Nat.le_refl _
  | succ count ih =>
      obtain ⟨before, position, rest⟩ := here
      cases rest with
      | nil => exact Nat.le_refl _
      | cons c rest => exact Nat.le_of_succ_le (ih ⟨some c, position + 1, rest⟩)

theorem skip_eq (count : Nat) (before : Option Char) (position : Nat) (t : Text) :
    skip count ⟨before, position, t⟩ =
      ⟨lastOf before (t.take count), position + (t.take count).length, t.drop count⟩ := by
  induction count generalizing before position t with
  | zero => rfl
  | succ count ih =>
      cases t with
      | nil => rfl
      | cons c t =>
          rw [skip, ih, List.take_succ_cons, List.drop_succ_cons, lastOf_cons, List.length_cons]
          congr 1
          omega

end Cursor

namespace Pattern

variable {p q : Pattern} {before before' : Option Char} {s s' t u v x y : Text} {accepts : Char → Bool}
  {kept : List (Nat × Text)} {c : Char}

theorem stretches_append_of_stops (stops : Stops accepts s) :
    stretches accepts (x ++ s) = stretches accepts x := by
  induction x with
  | nil =>
      cases s with
      | nil => rfl
      | cons c s => simp [stretches, stops_cons.mp stops]
  | cons c x ih => rw [List.cons_append, stretches, stretches, ih]

private theorem repeatedly_of_nothing {step : Option Char → Text → List Reading}
    (h : ∀ a ∈ step before s, a.text = []) (rounds : Nat) :
    repeatedly step rounds before s = [.nothing] := by
  cases rounds with
  | zero => rfl
  | succ rounds =>
      rw [repeatedly, List.append_left_eq_self]
      refine List.flatMap_eq_nil_iff.mpr fun a ha => if_neg ?_
      simp [h a ha]

private theorem repeatedly_cut {step : Option Char → Text → List Reading}
    (same : ∀ {before before' : Option Char}, before.any Text.isWord = before'.any Text.isWord →
      ∀ x, step before (x ++ s) = step before' (x ++ s'))
    (inside : ∀ before x, ∀ a ∈ step before (x ++ s), a.text <+: x) (rounds : Nat) :
    ∀ {before before' : Option Char} {x : Text} {rounds' : Nat},
      before.any Text.isWord = before'.any Text.isWord → x.length ≤ rounds → x.length ≤ rounds' →
      repeatedly step rounds before (x ++ s) = repeatedly step rounds' before' (x ++ s') := by
  have ended : ∀ {before before' : Option Char}, before.any Text.isWord = before'.any Text.isWord →
      ∀ rounds rounds', repeatedly step rounds before ([] ++ s) = repeatedly step rounds' before' ([] ++ s') := by
    intro before before' front rounds rounds'
    have nothing : ∀ a ∈ step before ([] ++ s), a.text = [] := fun a ha =>
      List.prefix_nil.mp (inside before [] a ha)
    rw [repeatedly_of_nothing nothing, repeatedly_of_nothing (same front [] ▸ nothing)]
  induction rounds with
  | zero =>
      intro before before' x rounds' front short _
      obtain rfl := List.eq_nil_of_length_eq_zero (Nat.le_zero.mp short)
      exact ended front 0 rounds'
  | succ rounds ih =>
      intro before before' x rounds' front short short'
      cases rounds' with
      | zero =>
          obtain rfl := List.eq_nil_of_length_eq_zero (Nat.le_zero.mp short')
          exact ended front (rounds + 1) 0
      | succ rounds' =>
          rw [repeatedly, repeatedly, same front x]
          congr 1
          refine List.flatMap_congr fun a ha => ?_
          obtain ⟨z, rfl⟩ := inside before x a (same front x ▸ ha)
          split
          · rename_i moved
            rw [List.length_append] at short short'
            rw [List.append_assoc, List.append_assoc, List.drop_left, List.drop_left]
            exact congrArg _ (ih (any_lastOf_congr front a.text) (by omega) (by omega))
          · rfl

/-- Behind a place where the pattern stops, only the kind of the next character counts. -/
theorem readings_cut (back : s.head?.any Text.isWord = s'.head?.any Text.isWord)
    (stops : Stops p.mayRead s) (stops' : Stops p.mayRead s')
    (front : before.any Text.isWord = before'.any Text.isWord) (x : Text) :
    p.readings before (x ++ s) = p.readings before' (x ++ s') := by
  induction p generalizing before before' x with
  | empty => rfl
  | one accepts =>
      cases x with
      | cons c x => rfl
      | nil =>
          have refuses : ∀ before s, Stops accepts s → (one accepts).Refuses before s := fun _ _ h =>
            refuses_of_stops (p := one accepts) rfl h
          exact (refuses before s stops).trans (refuses before' s' stops').symm
  | boundary =>
      have edge : isEdge before (x ++ s) = isEdge before' (x ++ s') := by
        cases x with
        | nil => simp [isEdge, back, front]
        | cons c x => simp [isEdge, front]
      rw [readings, readings, edge]
  | sequence p q ihp ihq =>
      have left : ∀ {s}, Stops (sequence p q).mayRead s → Stops p.mayRead s := fun h c hc =>
        (Bool.or_eq_false_iff.mp (h c hc)).1
      have right : ∀ {s}, Stops (sequence p q).mayRead s → Stops q.mayRead s := fun h c hc =>
        (Bool.or_eq_false_iff.mp (h c hc)).2
      rw [readings, readings, ← ihp (left stops) (left stops') front x]
      refine List.flatMap_congr fun a ha => ?_
      obtain ⟨z, rfl⟩ := front_of_stopped (left stops) ha
      rw [List.append_assoc, List.append_assoc, List.drop_left, List.drop_left,
        ihq (right stops) (right stops') (any_lastOf_congr front a.text) z]
  | choice p q ihp ihq =>
      have left : ∀ {s}, Stops (choice p q).mayRead s → Stops p.mayRead s := fun h c hc =>
        (Bool.or_eq_false_iff.mp (h c hc)).1
      have right : ∀ {s}, Stops (choice p q).mayRead s → Stops q.mayRead s := fun h c hc =>
        (Bool.or_eq_false_iff.mp (h c hc)).2
      rw [readings, readings, ihp (left stops) (left stops') front x,
        ihq (right stops) (right stops') front x]
  | many accepts | few accepts =>
      have same : stretches accepts (x ++ s) = stretches accepts (x ++ s') :=
        (stretches_append_of_stops stops).trans (stretches_append_of_stops stops').symm
      rw [readings, readings, same]
  | repeated body ih =>
      have inside : ∀ before x, ∀ a ∈ body.readings before (x ++ s), a.text <+: x := fun _ _ _ ha =>
        front_of_stopped (p := body) stops ha
      exact repeatedly_cut (fun front x => ih stops stops' front x) inside _ front (by simp) (by simp)
  | group index body ih => rw [readings, readings, ih stops stops' front x]

theorem readings_behind (front : before.any Text.isWord = before'.any Text.isWord) (t : Text) :
    p.readings before t = p.readings before' t := by
  have same := readings_cut (p := p) (s := []) rfl stops_nil stops_nil front t
  rwa [List.append_nil] at same

/-- In front of a character that the pattern cannot read and that is in no word, a text ends. -/
theorem readings_stop (never : p.mayRead c = false) (plain : Text.isWord c = false) :
    p.readings before (x ++ c :: s) = p.readings before x := by
  have same : p.readings before (x ++ c :: s) = p.readings before (x ++ []) :=
    readings_cut (by simp [plain]) (stops_cons.mpr never) stops_nil rfl x
  rwa [List.append_nil] at same

theorem takes_stop (never : p.mayRead c = false) (plain : Text.isWord c = false) :
    p.Takes before x kept (t ++ c :: s) ↔ p.Takes before x kept t := by
  rw [Takes, Takes, ← List.append_assoc, readings_stop never plain]

theorem quiet_stop (never : p.mayRead c = false) (plain : Text.isWord c = false) :
    p.Quiet before x (t ++ c :: s) ↔ p.Quiet before x t := by
  induction x generalizing before with
  | nil => rfl
  | cons d x ih =>
      have front : p.readings before (d :: (x ++ t) ++ c :: s) = p.readings before (d :: (x ++ t)) :=
        readings_stop never plain
      rw [List.cons_append, List.append_assoc] at front
      rw [Quiet, Quiet, Refuses, Refuses, front, ih]

theorem Quiet.behind (h : p.Quiet before x s) (front : before.any Text.isWord = before'.any Text.isWord) :
    p.Quiet before' x s := by
  cases x with
  | nil => trivial
  | cons c x => exact ⟨(readings_behind front _).symm.trans h.1, h.2⟩

theorem Takes.behind (h : p.Takes before x kept s) (front : before.any Text.isWord = before'.any Text.isWord) :
    p.Takes before' x kept s := by
  rwa [Takes, ← readings_behind front]

private theorem repeatedly_anywhere {step : Option Char → Text → List Reading}
    (same : ∀ before before' t, step before t = step before' t) (rounds : Nat) :
    ∀ before before' t, repeatedly step rounds before t = repeatedly step rounds before' t := by
  induction rounds with
  | zero => exact fun _ _ _ => rfl
  | succ rounds ih =>
      intro before before' t
      rw [repeatedly, repeatedly, same before before' t]
      congr 1
      refine List.flatMap_congr fun a _ => ?_
      rw [ih (lastOf before a.text) (lastOf before' a.text)]

theorem readings_anywhere (blind : p.looksBehind = false) (before before' : Option Char) (t : Text) :
    p.readings before t = p.readings before' t := by
  induction p generalizing before before' t with
  | empty | one | many | few => rfl
  | boundary => cases blind
  | sequence p q ihp ihq =>
      obtain ⟨first, second⟩ := Bool.or_eq_false_iff.mp blind
      rw [readings, readings, ihp first before before' t]
      refine List.flatMap_congr fun a _ => ?_
      rw [ihq second (lastOf before a.text) (lastOf before' a.text)]
  | choice p q ihp ihq =>
      obtain ⟨first, second⟩ := Bool.or_eq_false_iff.mp blind
      rw [readings, readings, ihp first before before' t, ihq second before before' t]
  | repeated body ih => exact repeatedly_anywhere (ih blind) t.length before before' t
  | group index body ih => rw [readings, readings, ih blind before before' t]

/-- What is read without looking behind is read wherever it stands. -/
theorem Reads.anywhere {a : Reading} (h : p.Reads before t a) (blind : p.looksBehind = false) (before' : Option Char)
    (s : Text) : p.Reads before' (a.text ++ s) a := by
  obtain ⟨r, rfl⟩ := h.front
  refine h.elsewhere [] rfl fun looks => ?_
  rw [blind] at looks
  cases looks

theorem Refuses.of_append (blind : p.looksBehind = false) (h : p.Refuses before (t ++ s)) : p.Refuses before t := by
  refine refuses_iff.mpr fun a ha => ?_
  obtain ⟨r, rfl⟩ := front_of_mem ha
  rw [List.append_assoc] at h
  exact refuses_iff.mp h a ((reads_of_mem ha).anywhere blind _ _).mem

theorem Quiet.of_append (blind : p.looksBehind = false) (h : p.Quiet before (x ++ y) []) : p.Quiet before x [] := by
  induction x generalizing before with
  | nil => trivial
  | cons c x ih =>
      obtain ⟨first, rest⟩ := h
      rw [List.append_nil] at first
      refine ⟨?_, ih rest⟩
      rw [List.append_nil]
      exact first.of_append (t := c :: x) blind

/-- No reading goes on behind the character, so that what stands there makes no difference. -/
def EndsAt (p : Pattern) (c : Char) : Prop :=
  ∀ before x s, p.readings before (x ++ c :: s) = p.readings before (x ++ [c])

theorem endsAt_of_never (never : p.mayRead c = false) : p.EndsAt c := by
  intro before x s
  refine readings_cut ?_ (stops_cons.mpr never) (stops_cons.mpr never) rfl x
  rfl

theorem endsAt_append_char (never : p.mayRead c = false) : (p ++ char c).EndsAt c := by
  intro before x s
  have stops : ∀ s, Stops p.mayRead (c :: s) := fun _ => stops_cons.mpr never
  rw [readings_append, readings_append, endsAt_of_never never]
  refine List.flatMap_congr fun a ha => ?_
  obtain ⟨z, rfl⟩ := front_of_stopped (stops_cons.mpr never) ha
  rw [List.append_assoc, List.append_assoc, List.drop_left, List.drop_left]
  cases z with
  | nil => rfl
  | cons d z => rfl

namespace EndsAt

variable (ends : p.EndsAt c)
include ends

theorem readings_append (h : c ∈ s) (t : Text) : p.readings before (s ++ t) = p.readings before s := by
  obtain ⟨x, y, rfl⟩ := List.append_of_mem h
  rw [List.append_assoc, List.cons_append, ends, ends before x y]

theorem refuses (h : c ∈ s) (t : Text) : p.Refuses before (s ++ t) ↔ p.Refuses before s := by
  rw [Refuses, ends.readings_append h, Refuses]

theorem takes (h : c ∈ s) (t : Text) : p.Takes before x kept (s ++ t) ↔ p.Takes before x kept s := by
  rw [Takes, Takes, ← List.append_assoc, ends.readings_append (List.mem_append_right x h)]

theorem quiet (h : c ∈ s) (t : Text) : p.Quiet before x (s ++ t) ↔ p.Quiet before x s := by
  induction x generalizing before with
  | nil => rfl
  | cons d x ih =>
      have front : p.Refuses before (d :: (x ++ s) ++ t) ↔ p.Refuses before (d :: (x ++ s)) :=
        ends.refuses (List.mem_cons_of_mem d (List.mem_append_right x h)) t
      rw [List.cons_append, List.append_assoc] at front
      rw [Quiet, Quiet, ih, front]

end EndsAt

/-- A search meets a place that refuses the pattern or a first reading, until the text is over. -/
theorem search_induction (reads : p.nullable = false) {motive : Option Char → Text → Prop}
    (nil : ∀ before, motive before [])
    (refused : ∀ before c s, p.Refuses before (c :: s) → motive (some c) s → motive before (c :: s))
    (taken : ∀ before x kept s, x ≠ [] → p.Takes before x kept s → motive (lastOf before x) s →
      motive before (x ++ s)) :
    ∀ before t, motive before t := by
  intro before t
  induction t using Text.shorter_induction generalizing before with
  | step t shorter =>
      cases first : (p.readings before t).head? with
      | none =>
          cases t with
          | nil => exact nil before
          | cons c s =>
              exact refused before c s (List.head?_eq_none_iff.mp first) (shorter s (Nat.lt_succ_self _) _)
      | some a =>
          obtain ⟨s, rfl⟩ := front_of_mem (List.mem_of_mem_head? first)
          have takes : p.Takes before a.text a.kept s := first
          have nonempty := takes.ne_nil reads
          refine taken before a.text a.kept s nonempty takes (shorter s ?_ _)
          have moved := List.length_pos_of_ne_nil nonempty
          rw [List.length_append]
          omega

theorem exists_of_find? (reads : p.nullable = false) {position : Nat} {found : Match}
    (h : p.find? ⟨before, position, t⟩ = some found) :
    ∃ u s, t = u ++ (found.reading.text ++ s) ∧ p.Quiet before u (found.reading.text ++ s) ∧
      p.Takes (lastOf before u) found.reading.text found.reading.kept s ∧
      found.start.position = position + u.length ∧
      found.stop.position = position + u.length + found.reading.text.length := by
  obtain ⟨u, v, rfl, quiet, reading⟩ := exists_quiet_of_find? reads h
  obtain ⟨a, rest, first⟩ := List.exists_cons_of_ne_nil reading
  obtain ⟨s, rfl⟩ := front_of_mem (first ▸ List.mem_cons_self)
  have takes : p.Takes (lastOf before u) a.text a.kept s := by rw [Takes, first, List.head?_cons]
  obtain ⟨found', some, start, stop, same⟩ := find?_of_takes takes (position + u.length)
  rw [← find?_of_quiet quiet, h, Option.some.injEq] at some
  subst some
  exact ⟨u, s, by rw [same], by rwa [same], by rwa [same], by rw [start], by rw [stop, same]⟩

theorem find?_of_quiet_of_takes (quiet : p.Quiet before u (x ++ s)) (takes : p.Takes (lastOf before u) x kept s)
    (position : Nat) :
    ∃ found, p.find? ⟨before, position, u ++ (x ++ s)⟩ = some found ∧ found.reading = ⟨x, kept⟩ ∧
      found.start.position = position + u.length ∧
      found.stop.position = position + u.length + x.length := by
  obtain ⟨found, some, start, stop, reading⟩ := find?_of_takes takes (position + u.length)
  refine ⟨found, ?_, reading, by rw [start], by rw [stop]⟩
  rw [find?_of_quiet quiet, some]

private theorem le_stop_of_matchAt? {here : Cursor} {found : Match} (h : p.matchAt? here = some found) :
    here.position ≤ found.stop.position := by
  rcases matchAt?_cases p here with ⟨none, -⟩ | ⟨found', some, -, stop, -, -⟩
  · rw [none] at h
    cases h
  · rw [some, Option.some.injEq] at h
    subst h
    rw [stop]
    exact here.position_le_skip _

private theorem le_stop_of_mem_go {found : Match} (t : Text) :
    ∀ {skip before position}, found ∈ findAll.go p skip before position t →
      position + skip ≤ found.stop.position := by
  induction t with
  | nil =>
      intro skip before position h
      cases skip with
      | zero => exact le_stop_of_matchAt? (Option.mem_toList.mp h)
      | succ skip => cases h
  | cons c t ih =>
      intro skip before position h
      cases skip with
      | succ skip =>
          have := ih h
          omega
      | zero =>
          rw [findAll.go] at h
          split at h
          · rename_i first some
            rcases List.mem_cons.mp h with rfl | h
            · exact le_stop_of_matchAt? some
            · have := ih h
              omega
          · have := ih h
            omega

theorem exists_search?_of_mem_findAll {found : Match} (h : found ∈ p.findAll t) :
    ∃ first, p.search? t = some first ∧ first.stop.position ≤ found.stop.position := by
  have go : ∀ before position, found ∈ findAll.go p 0 before position t →
      ∃ first, find?.go p before position t = some first ∧
        first.stop.position ≤ found.stop.position := by
    clear h
    induction t with
    | nil => exact fun before position h => ⟨found, Option.mem_toList.mp h, Nat.le_refl _⟩
    | cons c t ih =>
        intro before position h
        rw [findAll.go] at h
        rw [find?.go]
        rcases matchAt?_cases p ⟨before, position, c :: t⟩ with
          ⟨none, -⟩ | ⟨first, some, start, -⟩
        · rw [none] at h ⊢
          exact ih _ _ h
        · rw [some] at h ⊢
          refine ⟨first, rfl, ?_⟩
          rcases List.mem_cons.mp h with rfl | h
          · exact Nat.le_refl _
          · have behind := le_stop_of_mem_go t h
            have started : first.start.position = position := congrArg Cursor.position start
            rw [Span.length, started] at behind
            omega
  exact go none 0 h

theorem mem_findAll_of_search? {found : Match} (h : p.search? t = some found) : found ∈ p.findAll t := by
  have go : ∀ before position, find?.go p before position t = some found → found ∈ findAll.go p 0 before position t := by
    clear h
    induction t with
    | nil => exact fun before position h => Option.mem_toList.mpr h
    | cons c t ih =>
        intro before position h
        rw [find?.go] at h
        rw [findAll.go]
        rcases matchAt?_cases p ⟨before, position, c :: t⟩ with ⟨none, -⟩ | ⟨first, some, -⟩
        · rw [none] at h ⊢
          exact ih _ _ h
        · rw [some] at h ⊢
          exact Option.some.inj h ▸ List.mem_cons_self
  exact go none 0 h

theorem find?_eq_none_behind (reads : p.nullable = false) {position : Nat}
    (h : p.find? ⟨before, position, x ++ y⟩ = none) (position' : Nat) :
    p.find? ⟨lastOf before x, position', y⟩ = none :=
  find?_eq_none_of_quiet reads (quiet_append.mp (quiet_of_find?_eq_none h)).2 position'

/-- The text with its first readings replaced, none of them inside another. -/
def rewrite (p : Pattern) (replacement : Text → Text) (before : Option Char) (t : Text) : Text :=
  go 0 before t
where
  /-- Leaves out `skip` characters, the rest of the last reading, and goes on with the search. -/
  go : (skip : Nat) → Option Char → Text → Text
    | skip + 1, _, c :: rest => go skip (some c) rest
    | 0, before, c :: rest =>
      match (p.readings before (c :: rest)).head? with
      | some r => replacement r.text ++ go (r.text.length - 1) (some c) rest
      | none => c :: go 0 (some c) rest
    | _, _, [] => []

variable {replacement : Text → Text}

theorem replaceAll_eq_rewrite (p : Pattern) (replacement : Text → Text) (t : Text) :
    p.replaceAll replacement t = p.rewrite replacement none t := by
  have go : ∀ skip before position, replaceAll.go p replacement skip before position t =
      rewrite.go p replacement skip before t := by
    induction t with
    | nil =>
        intro skip before position
        cases skip <;> rfl
    | cons c t ih =>
        intro skip before position
        cases skip with
        | succ skip => exact ih skip _ _
        | zero =>
            rw [replaceAll.go, rewrite.go]
            rcases matchAt?_cases p ⟨before, position, c :: t⟩ with
              ⟨none, refuses⟩ | ⟨found, some, -, -, length, first⟩
            · rw [none, refuses]
              exact congrArg _ (ih 0 _ _)
            · rw [some, first]
              simp only [ih, length]
              rfl
  exact go 0 none 0

private theorem rewrite_go_append (p : Pattern) (replacement : Text → Text) (before : Option Char) (x s : Text) :
    rewrite.go p replacement x.length before (x ++ s) = rewrite.go p replacement 0 (lastOf before x) s := by
  induction x generalizing before with
  | nil => rfl
  | cons c x ih => exact ih (some c)

theorem rewrite_of_refuses (h : p.Refuses before (c :: s)) :
    p.rewrite replacement before (c :: s) = c :: p.rewrite replacement (some c) s := by
  rw [rewrite, rewrite.go, h]
  rfl

theorem rewrite_of_takes (h : p.Takes before x kept s) (reads : x ≠ []) :
    p.rewrite replacement before (x ++ s) = replacement x ++ p.rewrite replacement (lastOf before x) s := by
  cases x with
  | nil => exact absurd rfl reads
  | cons c x =>
      rw [rewrite, List.cons_append, rewrite.go]
      rw [Takes, List.cons_append] at h
      simp only [h, List.length_cons, Nat.add_sub_cancel, rewrite_go_append, lastOf_cons, rewrite]

theorem rewrite_of_quiet (h : p.Quiet before x s) :
    p.rewrite replacement before (x ++ s) = x ++ p.rewrite replacement (lastOf before x) s := by
  induction x generalizing before with
  | nil => rfl
  | cons c x ih => rw [List.cons_append, rewrite_of_refuses h.1, ih h.2, List.cons_append, lastOf_cons]

@[simp] theorem rewrite_nil : p.rewrite replacement before [] = [] := rfl

theorem rewrite_behind (front : before.any Text.isWord = before'.any Text.isWord) (t : Text) :
    p.rewrite replacement before t = p.rewrite replacement before' t := by
  cases t with
  | nil => rfl
  | cons c t => rw [rewrite, rewrite, rewrite.go, rewrite.go, readings_behind front]

theorem rewrite_anywhere (blind : p.looksBehind = false) (before before' : Option Char) (t : Text) :
    p.rewrite replacement before t = p.rewrite replacement before' t := by
  cases t with
  | nil => rfl
  | cons c t => rw [rewrite, rewrite, rewrite.go, rewrite.go, readings_anywhere blind before before']

section Blind

variable (blind : p.looksBehind = false)
include blind

theorem replaceAll_of_takes (h : p.Takes before x kept s) (reads : x ≠ []) :
    p.replaceAll replacement (x ++ s) = replacement x ++ p.replaceAll replacement s := by
  simp only [replaceAll_eq_rewrite]
  rw [rewrite_anywhere blind none before, rewrite_of_takes h reads, rewrite_anywhere blind _ none]

theorem replaceAll_of_refuses (h : p.Refuses before (c :: s)) :
    p.replaceAll replacement (c :: s) = c :: p.replaceAll replacement s := by
  simp only [replaceAll_eq_rewrite]
  rw [rewrite_anywhere blind none before, rewrite_of_refuses h, rewrite_anywhere blind _ none]

end Blind

/-- A character that is never read and is in no word cuts a replacement in two. -/
theorem replaceAll_append (reads : p.nullable = false) (never : p.mayRead c = false)
    (plain : Text.isWord c = false) (x s : Text) :
    p.replaceAll replacement (x ++ c :: s) = p.replaceAll replacement x ++ c :: p.replaceAll replacement s := by
  have cut : ∀ before x, p.rewrite replacement before (x ++ c :: s) =
      p.rewrite replacement before x ++ c :: p.rewrite replacement (some c) s := by
    intro before x
    induction before, x using search_induction reads with
    | nil before =>
        have refuses : p.Refuses before ([] ++ c :: s) :=
          (readings_stop never plain).trans (refuses_of_stops reads stops_nil)
        exact rewrite_of_refuses refuses
    | refused before d x refuses ih =>
        have refuses' : p.Refuses before (d :: (x ++ c :: s)) :=
          (readings_stop (x := d :: x) never plain).trans refuses
        rw [rewrite_of_refuses refuses, List.cons_append, rewrite_of_refuses refuses', ih, List.cons_append]
    | taken before y kept x nonempty takes ih =>
        have takes' : p.Takes before y kept (x ++ c :: s) := by
          rwa [Takes, ← List.append_assoc, readings_stop never plain]
        rw [rewrite_of_takes takes nonempty, List.append_assoc, rewrite_of_takes takes' nonempty, ih,
          List.append_assoc]
  simp only [replaceAll_eq_rewrite]
  have behind : p.rewrite replacement (some c) s = p.rewrite replacement none s := rewrite_behind (by simp [plain]) s
  rw [cut, behind]

/-- A replacement that keeps a relation between texts character by character keeps it everywhere. -/
theorem forall₂_replaceAll (reads : p.nullable = false) {related : Char → Char → Prop}
    (same : ∀ c, related c c)
    (replaced : ∀ before t, ∀ a ∈ p.readings before t, List.Forall₂ related a.text (replacement a.text))
    (t : Text) : List.Forall₂ related t (p.replaceAll replacement t) := by
  rw [replaceAll_eq_rewrite]
  generalize (none : Option Char) = before
  induction before, t using search_induction reads with
  | nil before => exact .nil
  | refused before c s refuses ih =>
      rw [rewrite_of_refuses refuses]
      exact .cons (same c) ih
  | taken before x kept s nonempty takes ih =>
      rw [rewrite_of_takes takes nonempty]
      exact List.rel_append (replaced before _ _ takes.mem) ih

private theorem head?_rewrite (opens : ∀ d, p.opens d = true → d = c) (reads : p.nullable = false)
    (h : (p.rewrite replacement before t).head? = some c) : t.head? = some c := by
  cases t with
  | nil => cases h
  | cons d t =>
      by_cases refuses : p.Refuses before (d :: t)
      · rwa [rewrite_of_refuses refuses] at h
      · have opened : p.opens d = true := by
          by_contra closed
          exact refuses (refuses_of_stops reads (stops_cons.mpr (by simpa using closed)))
        rw [opens d opened, List.head?_cons]

theorem not_refuses_exactly_many {k : Text} : ¬ (exactly k ++ many accepts).Refuses before (k ++ s) := by
  have split : s.takeWhile accepts ++ s.dropWhile accepts = s := List.takeWhile_append_dropWhile
  have takes : (exactly k ++ many accepts).Takes before (k ++ s.takeWhile accepts) [] (s.dropWhile accepts) :=
    takes_exactly.append (.many (fun c hc => List.all_eq_true.mp List.all_takeWhile c hc) (stops_dropWhile accepts s))
  have read := takes.mem
  rw [List.append_assoc, split] at read
  exact fun refuses => refuses_iff.mp refuses _ read

/-- A replacement of everything that begins with a pair of equal characters leaves no such pair. -/
theorem not_pair_infix_replaceAll (reads : p.nullable = false) (opens : ∀ d, p.opens d = true → d = c)
    (pair : ∀ before s, ¬ p.Refuses before (c :: c :: s)) (replaced : ∀ x, c ∉ replacement x) (t : Text) :
    ¬ [c, c] <:+: p.replaceAll replacement t := by
  rw [replaceAll_eq_rewrite]
  generalize (none : Option Char) = before
  induction before, t using search_induction reads with
  | nil before => simp
  | refused before d s refuses ih =>
      rw [rewrite_of_refuses refuses]
      intro found
      rcases List.infix_cons_iff.mp found with front | inside
      · obtain ⟨rfl, front⟩ := List.cons_prefix_cons.mp front
        obtain ⟨rest, split⟩ := front
        have next := head?_rewrite (t := s) opens reads (by rw [← split]; rfl)
        obtain ⟨s, rfl⟩ := List.head?_eq_some_iff.mp next
        exact pair before s refuses
      · exact ih inside
  | taken before x kept s nonempty takes ih =>
      rw [rewrite_of_takes takes nonempty]
      have absent := replaced x
      generalize replacement x = y at absent
      induction y with
      | nil => exact ih
      | cons d y more =>
          intro found
          rcases List.infix_cons_iff.mp found with front | inside
          · obtain ⟨rfl, -⟩ := List.cons_prefix_cons.mp front
            exact absent List.mem_cons_self
          · exact more (fun hc => absent (List.mem_cons_of_mem d hc)) inside

end Pattern

end Pinout
