import Pinout.Proofs.Pattern.Settled

/-! # Where a search stands

A search comes to a character with each place in front of it settled, or it comes to a place from which it may read on
across the character. The matches up to there tell the two apart: they show where each of them begins and where the
search goes on behind it.
-/

namespace Pinout.Pattern

variable {p q r : Pattern} {before : Option Char} {c : Char} {s t x y : Text} {kept : List (Nat × Text)} {position : Nat}

def matchesFrom (p : Pattern) (here : Cursor) : List Match :=
  findAll.go p 0 here.before here.position here.rest

private theorem findAll_go_append (p : Pattern) (before : Option Char) (position : Nat) (x s : Text) :
    findAll.go p x.length before position (x ++ s) = findAll.go p 0 (lastOf before x) (position + x.length) s := by
  induction x generalizing before position with
  | nil => rfl
  | cons c x ih =>
      have rest := ih (some c) (position + 1)
      rwa [Nat.add_assoc, Nat.add_comm 1] at rest

theorem matchesFrom_nil (reads : p.nullable = false) (position : Nat) : p.matchesFrom ⟨before, position, []⟩ = [] := by
  have refuses : p.Refuses before [] := refuses_of_stops reads stops_nil
  rw [matchesFrom, findAll.go, refuses.matchAt?_eq_none]
  rfl

theorem matchesFrom_of_refuses (h : p.Refuses before (c :: s)) (position : Nat) :
    p.matchesFrom ⟨before, position, c :: s⟩ = p.matchesFrom ⟨some c, position + 1, s⟩ := by
  rw [matchesFrom, findAll.go, h.matchAt?_eq_none]
  rfl

theorem matchesFrom_of_takes (h : p.Takes before x kept s) (reads : x ≠ []) (position : Nat) :
    ∃ found : Match, found.start = ⟨before, position, x ++ s⟩ ∧
      found.stop = ⟨lastOf before x, position + x.length, s⟩ ∧
      p.matchesFrom ⟨before, position, x ++ s⟩ = found :: p.matchesFrom ⟨lastOf before x, position + x.length, s⟩ := by
  rcases matchAt?_cases p ⟨before, position, x ++ s⟩ with ⟨-, refuses⟩ | ⟨found, some, start, stop, length, first⟩
  · exact absurd refuses h.not_refuses
  · have reading : found.reading = ⟨x, kept⟩ := Option.some.inj (first.symm.trans h)
    rw [reading] at stop length
    rw [Cursor.skip_append] at stop
    refine ⟨found, start, stop, ?_⟩
    obtain ⟨d, y, rfl⟩ := List.exists_cons_of_ne_nil reads
    have rest := findAll_go_append p (Option.some d) (position + 1) y s
    rw [List.cons_append] at some ⊢
    rw [matchesFrom, findAll.go, some, matchesFrom]
    dsimp only
    rw [length, List.length_cons, Nat.add_sub_cancel, rest, lastOf_cons, Nat.add_comm y.length, Nat.add_assoc]

theorem search?_eq_none_of_prefix (reads : p.nullable = false) (blind : p.looksBehind = false) (h : x <+: t)
    (missing : p.search? t = none) : p.search? x = none := by
  obtain ⟨s, rfl⟩ := h
  exact find?_eq_none_of_quiet reads ((quiet_of_find?_eq_none missing).of_append blind) 0

/-- Reads what a reading of the pattern begins with. -/
def fronts : Pattern → Pattern
  | empty | boundary => empty
  | one accepts => optional (one accepts)
  | sequence first second => choice first.fronts (sequence first second.fronts)
  | choice first second => choice first.fronts second.fronts
  | many accepts | few accepts => many accepts
  | repeated body => sequence (repeated body) (optional body.fronts)
  | group _ body => body.fronts

/-- A step in front of a repetition is one more step of it. -/
theorem Reads.again_sequence {a b : Reading} (first : p.Reads before (a.text ++ t) a) (moved : a.text ≠ [])
    (rest : (Pattern.sequence (Pattern.repeated p) q).Reads (lastOf before a.text) t b) :
    (Pattern.sequence (Pattern.repeated p) q).Reads before (a.text ++ t) (a.append b) := by
  cases rest with
  | @sequence _ _ _ s r f steps last =>
      have longer : (Pattern.repeated p).Reads before (a.text ++ (r.text ++ s)) (a.append r) := .again first moved steps
      rw [← List.append_assoc] at longer ⊢
      rw [← Reading.append_assoc]
      have last : q.Reads (lastOf before (a.append r).text) s f := by
        rw [Reading.append, lastOf_append]
        exact last
      exact .sequence (a := a.append r) longer last

theorem Reads.fronts {a : Reading} (h : p.Reads before t a) (blind : p.looksBehind = false) (split : a.text = x ++ y)
    (before' : Option Char) (s : Text) : ∃ kept, p.fronts.Reads before' (x ++ s) ⟨x, kept⟩ := by
  induction h generalizing x y before' s with
  | empty | boundary =>
      obtain ⟨rfl, -⟩ := List.append_eq_nil_iff.mp split.symm
      exact ⟨[], .empty⟩
  | one accepted =>
      cases x with
      | nil => exact ⟨[], .right .empty⟩
      | cons d x =>
          obtain ⟨rfl, rest⟩ := List.cons.inj split
          obtain ⟨rfl, -⟩ := List.append_eq_nil_iff.mp rest.symm
          exact ⟨[], .left (.one accepted)⟩
  | @sequence p q before t a b first _ ih ih' =>
      obtain ⟨blind, blind'⟩ := Bool.or_eq_false_iff.mp blind
      rcases List.append_eq_append_iff.mp split with ⟨m, rfl, rest⟩ | ⟨m, rest, -⟩
      · obtain ⟨kept, read⟩ := ih' blind' rest (lastOf before' a.text) s
        have both := Reads.sequence (first.anywhere blind before' (m ++ s)) read
        rw [← List.append_assoc] at both
        exact ⟨_, .right both⟩
      · obtain ⟨kept, read⟩ := ih blind rest before' s
        exact ⟨kept, .left read⟩
  | left _ ih =>
      obtain ⟨kept, read⟩ := ih (Bool.or_eq_false_iff.mp blind).1 split before' s
      exact ⟨kept, .left read⟩
  | right _ ih =>
      obtain ⟨kept, read⟩ := ih (Bool.or_eq_false_iff.mp blind).2 split before' s
      exact ⟨kept, .right read⟩
  | many run | few run =>
      obtain rfl := split
      exact ⟨[], .many (List.forall_mem_append.mp run).1⟩
  | done =>
      obtain ⟨rfl, -⟩ := List.append_eq_nil_iff.mp split.symm
      exact ⟨[], .sequence (a := .nothing) (b := .nothing) .done (.right .empty)⟩
  | @again p before t a b first moved _ ih ih' =>
      rcases List.append_eq_append_iff.mp split with ⟨m, rfl, rest⟩ | ⟨m, rest, -⟩
      · obtain ⟨kept, read⟩ := ih' blind rest (lastOf before' a.text) s
        have more := (first.anywhere blind before' (m ++ s)).again_sequence moved read
        rw [← List.append_assoc] at more
        exact ⟨_, more⟩
      · obtain ⟨kept, read⟩ := ih blind rest before' s
        exact ⟨_, .sequence (a := .nothing) .done (.left read)⟩
  | group index _ ih => exact ih blind split before' s

/-- From the place of a match on, the other pattern reads up to the end of the text. -/
def LeavesOpen (p q : Pattern) (t : Text) : Prop :=
  ∃ found ∈ p.findAll t, ∃ a ∈ q.readings found.start.before found.start.rest, a.text = found.start.rest

instance (p q : Pattern) (t : Text) : Decidable (p.LeavesOpen q t) :=
  inferInstanceAs (Decidable (∃ found ∈ _, ∃ a ∈ _, _))

/-- How a search comes to the character behind `x`. -/
inductive Arrives (p : Pattern) (c : Char) (before : Option Char) (position : Nat) (x : Text) : Prop
  /-- What is found in front of the character ends there. -/
  | settled (told : List Reading) (scans : ∀ t, p.scan before (x ++ c :: t) = told ++ p.scan (some c) t)
      (ends : ∀ found ∈ p.matchesFrom ⟨before, position, x ++ [c]⟩, found.stop.rest ≠ [])
  /-- The search comes to a place in front of the character that is not settled. -/
  | unsettled (told : List Reading) (u z : Text) (split : x = u ++ z) (across : ¬ p.Settled c (lastOf before u) z)
      (scans : ∀ t, p.scan before (x ++ c :: t) = told ++ p.scan (lastOf before u) (z ++ c :: t))
      (found : p.matchesFrom ⟨lastOf before u, position + u.length, z ++ [c]⟩ ⊆
        p.matchesFrom ⟨before, position, x ++ [c]⟩)

namespace Arrives

theorem of_refuses {d : Char} (h : p.Arrives c (some d) (position + 1) x)
    (refuses : ∀ t, p.Refuses before (d :: x ++ c :: t)) : p.Arrives c before position (d :: x) := by
  have here : p.matchesFrom ⟨before, position, d :: x ++ [c]⟩ = p.matchesFrom ⟨some d, position + 1, x ++ [c]⟩ :=
    matchesFrom_of_refuses (refuses []) position
  have behind : ∀ t, p.scan before (d :: x ++ c :: t) = p.scan (some d) (x ++ c :: t) := fun t =>
    scan_of_refuses (refuses t)
  cases h with
  | settled told scans ends => exact .settled told (fun t => (behind t).trans (scans t)) (here ▸ ends)
  | unsettled told u z split across scans found =>
      refine .unsettled told (d :: u) z (by rw [split, List.cons_append]) across (fun t => (behind t).trans (scans t)) ?_
      rwa [here, lastOf_cons, List.length_cons, Nat.add_comm u.length, ← Nat.add_assoc]

theorem of_takes (h : p.Arrives c (lastOf before y) (position + y.length) x) (reads : y ≠ [])
    (takes : ∀ t, p.Takes before y kept (x ++ c :: t)) : p.Arrives c before position (y ++ x) := by
  obtain ⟨first, -, stop, here⟩ := matchesFrom_of_takes (takes []) reads position
  have behind : ∀ t, p.scan before (y ++ x ++ c :: t) = ⟨y, kept⟩ :: p.scan (lastOf before y) (x ++ c :: t) := fun t => by
    rw [List.append_assoc, scan_of_takes (takes t) reads]
  cases h with
  | settled told scans ends =>
      refine .settled (⟨y, kept⟩ :: told) (fun t => by rw [behind, scans, List.cons_append]) ?_
      rw [List.append_assoc, here]
      refine List.forall_mem_cons.mpr ⟨?_, ends⟩
      simp [stop]
  | unsettled told u z split across scans found =>
      refine .unsettled (⟨y, kept⟩ :: told) (y ++ u) z (by rw [split, List.append_assoc]) (by rwa [lastOf_append])
        (fun t => by rw [behind, scans, lastOf_append, List.cons_append]) ?_
      rw [lastOf_append, List.length_append, ← Nat.add_assoc, List.append_assoc, here]
      exact List.subset_cons_of_subset _ found

end Arrives

theorem arrives (reads : p.nullable = false) (c : Char) (before : Option Char) (position : Nat) (x : Text) :
    p.Arrives c before position x := by
  induction x using Text.shorter_induction generalizing before position with
  | step x shorter =>
      by_cases settled : p.Settled c before x
      · rcases settled with ⟨y, z, kept, rfl, takes⟩ | refuses
        · have nonempty := (takes []).ne_nil reads
          refine .of_takes (shorter z ?_ _ _) nonempty takes
          have moved := List.length_pos_of_ne_nil nonempty
          rw [List.length_append]
          omega
        · cases x with
          | nil =>
              have refused : ∀ t, p.Refuses before (c :: t) := refuses
              refine .settled [] (fun t => scan_of_refuses (refused t)) ?_
              rw [List.nil_append, matchesFrom_of_refuses (refused []), matchesFrom_nil reads]
              simp
          | cons d x => exact .of_refuses (shorter x (Nat.lt_succ_self _) _ _) refuses
      · exact .unsettled [] [] x rfl settled (fun _ => rfl) (List.Subset.refl _)

/-- A match goes on to the character if the reading behind its head may go on across it. -/
theorem leavesOpen_of_takes {u v : Text} {a : Reading} (reads : p.nullable = false)
    (begins : ∀ before t, p.Refuses before t → q.Refuses before t) (takes : q.Takes (lastOf none u) y kept (v ++ [c]))
    (across : a ∈ r.readings before s) (blind : r.looksBehind = false) (inside : v ++ [c] <+: a.text)
    (found : p.matchesFrom ⟨lastOf none u, 0 + u.length, y ++ (v ++ [c])⟩ ⊆ p.matchesFrom ⟨none, 0, t⟩) :
    p.LeavesOpen (q ++ r.fronts) t := by
  obtain ⟨x, kept, s, split, first⟩ := exists_takes (mt (begins _ _) takes.not_refuses)
  obtain ⟨whole, start, -, here⟩ := matchesFrom_of_takes first (first.ne_nil reads) (0 + u.length)
  rw [← split] at here start
  obtain ⟨w, split'⟩ := inside
  obtain ⟨more, front⟩ := (reads_of_mem across).fronts blind split'.symm (lastOf (lastOf none u) y) []
  rw [List.append_nil] at front
  refine ⟨whole, found (here ▸ List.mem_cons_self), ?_⟩
  rw [start]
  exact ⟨_, mem_append_of_mem takes.mem front.mem, rfl⟩

end Pinout.Pattern
