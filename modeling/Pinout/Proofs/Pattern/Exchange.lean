import Pinout.Proofs.Pattern.Settled

/-! # A part of a text is exchanged

In a text `x ++ (m ++ r)` the part `m` is exchanged for `m'`. What is read first from a place in `x` on ends in
`x`, where the part has no influence on it, or in `r`, where it ends at the same place with either part. If that
is so at every place, the two searches go on side by side, and what they find is related as the first readings are.
-/

namespace Pinout.Pattern

variable {R : Reading → Reading → Prop} {p q : Pattern} {before : Option Char} {c : Char} {m m' r s x z : Text}

/-- From the front of `z ++ (m ++ r)` on the same is read as with `m'` in the place of `m`, up to related readings
that go on across the part. -/
inductive ReadsAlike (R : Reading → Reading → Prop) (p : Pattern) (m m' r : Text) (before : Option Char) (z : Text) : Prop
  /-- The first reading ends in front of the part. -/
  | inside {u v : Text} {kept : List (Nat × Text)} (split : z = u ++ v) (takes : p.Takes before u kept (v ++ (m ++ r)))
      (takes' : p.Takes before u kept (v ++ (m' ++ r)))
  /-- The first reading goes on across the part. -/
  | across {w s : Text} {kept kept' : List (Nat × Text)} (split : r = w ++ s)
      (takes : p.Takes before (z ++ (m ++ w)) kept s) (takes' : p.Takes before (z ++ (m' ++ w)) kept' s)
      (related : R ⟨z ++ (m ++ w), kept⟩ ⟨z ++ (m' ++ w), kept'⟩)
  | nothing (refuses : p.Refuses before (z ++ (m ++ r))) (refuses' : p.Refuses before (z ++ (m' ++ r)))

theorem ReadsAlike.group {index : Nat}
    (h : ReadsAlike (fun a a' => R ⟨a.text, (index, a.text) :: a.kept⟩ ⟨a'.text, (index, a'.text) :: a'.kept⟩) p m m' r
      before z) :
    ReadsAlike R (group index p) m m' r before z := by
  cases h with
  | inside split takes takes' => exact .inside split (takes.group index) (takes'.group index)
  | across split takes takes' related => exact .across split (takes.group index) (takes'.group index) related
  | nothing refuses refuses' => exact .nothing (refuses.group index) (refuses'.group index)

theorem Settled.readsAlike (h : p.Settled c before z) : ReadsAlike R p (c :: m) (c :: m') r before z := by
  rcases h with ⟨u, v, kept, rfl, takes⟩ | refuses
  · exact .inside rfl (takes _) (takes _)
  · exact .nothing (refuses _) (refuses _)

/-- An optional part is read alike behind what is read alike. Behind the exchanged part it reads the same anyway. -/
theorem ReadsAlike.append_optional {Q : Reading → Reading → Prop} (last : ∀ before, lastOf before m = lastOf before m')
    (first : ReadsAlike Q q m m' r before z)
    (second : ∀ u v kept, z = u ++ v →
      ReadsAlike (fun a a' => R (.append ⟨u, kept⟩ a) (.append ⟨u, kept⟩ a')) p m m' r (lastOf before u) v)
    (behind : ∀ {a a' b before t}, b ∈ (optional p).readings before t → Q a a' → R (a.append b) (a'.append b)) :
    ReadsAlike R (q ++ optional p) m m' r before z := by
  cases first with
  | @inside u v kept split takes takes' =>
      subst split
      cases second u v kept rfl with
      | @inside w y more split taken taken' =>
          subst split
          have both : ∀ {m}, q.Takes before u kept (w ++ y ++ (m ++ r)) → p.Takes (lastOf before u) w more (y ++ (m ++ r)) →
              (q ++ optional p).Takes before (u ++ w) (more ++ kept) (y ++ (m ++ r)) := fun takes taken => by
            rw [List.append_assoc] at takes
            exact takes.append taken.left
          exact .inside (List.append_assoc u w y).symm (both takes taken) (both takes' taken')
      | @across w s more more' split taken taken' related =>
          subst split
          have both : ∀ {m more}, q.Takes before u kept (v ++ (m ++ (w ++ s))) →
              p.Takes (lastOf before u) (v ++ (m ++ w)) more s →
              (q ++ optional p).Takes before (u ++ v ++ (m ++ w)) (more ++ kept) s := fun takes taken => by
            rw [List.append_assoc]
            refine Takes.append ?_ taken.left
            simpa only [List.append_assoc] using takes
          refine .across rfl (both takes taken) (both takes' taken') ?_
          simpa only [Reading.append, List.append_assoc] using related
      | nothing refused refused' =>
          have first : ∀ {m}, q.Takes before u kept (v ++ (m ++ r)) → p.Refuses (lastOf before u) (v ++ (m ++ r)) →
              (q ++ optional p).Takes before u kept (v ++ (m ++ r)) := fun takes refused => by
            have both := takes.append (y := []) (.nothing refused)
            rwa [List.append_nil] at both
          exact .inside rfl (first takes refused) (first takes' refused')
  | @across w s kept kept' split takes takes' related =>
      obtain ⟨y, more, tail, rfl, taken⟩ := exists_takes (not_refuses_optional (p := p) (lastOf before (z ++ (m ++ w))) s)
      have same : lastOf before (z ++ (m' ++ w)) = lastOf before (z ++ (m ++ w)) := by simp only [lastOf_append, last]
      have both := takes.append taken
      have both' := takes'.append (same ▸ taken)
      have found := behind taken.mem related
      simp only [Reading.append, List.append_assoc] at both both' found
      exact .across (by rw [split, List.append_assoc]) both both' found
  | nothing refuses refuses' => exact .nothing refuses.append refuses'.append

/-- Searches with either part in the middle find related readings, if the readings from each place in front of it
are alike and none begins in it. The induction is on what stands in front of the part. -/
theorem forall₂_scan_exchange (same : ∀ a, R a a) (reads : p.nullable = false)
    (last : ∀ before, lastOf before m = lastOf before m') (quiet : ∀ before, p.Quiet before m r)
    (quiet' : ∀ before, p.Quiet before m' r) (alike : ∀ before z, z ≠ [] → z <:+ x → ReadsAlike R p m m' r before z)
    (before : Option Char) : List.Forall₂ R (p.scan before (x ++ (m ++ r))) (p.scan before (x ++ (m' ++ r))) := by
  induction x using Text.shorter_induction generalizing before with
  | step x shorter =>
      cases x with
      | nil =>
          rw [List.nil_append, List.nil_append, scan_of_quiet (quiet before), scan_of_quiet (quiet' before), last]
          exact List.forall₂_same.mpr fun a _ => same a
      | cons d x =>
          cases alike before (d :: x) (by simp) (List.suffix_refl _) with
          | @inside u v kept split takes takes' =>
              have nonempty := takes.ne_nil reads
              have less : v.length < (d :: x).length := by
                have moved := List.length_pos_of_ne_nil nonempty
                rw [split, List.length_append]
                omega
              rw [split, List.append_assoc, List.append_assoc, scan_of_takes takes nonempty, scan_of_takes takes' nonempty]
              exact .cons (same _) (shorter v less
                (fun before z more suffix => alike before z more (split ▸ suffix.trans (List.suffix_append u v))) _)
          | @across w s kept kept' split takes takes' related =>
              have parts : ∀ m, d :: x ++ (m ++ r) = (d :: x ++ (m ++ w)) ++ s := fun m => by simp [split]
              rw [parts, parts, scan_of_takes takes (by simp), scan_of_takes takes' (by simp)]
              simp only [lastOf_append, last]
              -- Behind the part both searches stand at the same place.
              exact .cons related (List.forall₂_same.mpr fun a _ => same a)
          | nothing refuses refuses' =>
              rw [List.cons_append] at refuses refuses' ⊢
              rw [List.cons_append, scan_of_refuses refuses, scan_of_refuses refuses']
              exact shorter x (Nat.lt_succ_self _)
                (fun before z more suffix => alike before z more (suffix.trans (List.suffix_cons d x))) _

end Pinout.Pattern
