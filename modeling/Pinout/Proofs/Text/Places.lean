import Pinout.Proofs.Pattern.Found

/-! # Whole words in a text

A word stands in a text as a whole if no word character stands in front of it or behind it. Words that
are met one after the other, each behind the end of the last one, have places of their own.
-/

namespace Pinout

theorem lastOf_eq_getLast? (before : Option Char) (x : Text) : lastOf before x = x.getLast?.or before := by
  induction x generalizing before with
  | nil => rfl
  | cons c x ih =>
      rw [lastOf_cons, ih, List.getLast?_cons]
      cases x.getLast? <;> rfl

namespace Text

open Pattern (Stops stops_cons stops_append)

variable {before before' : Option Char} {s t u w x : Text} {words : List Text} {offset : Nat}

/-- The text `w` stands at an offset as a whole word. -/
structure StandsAt (t : Text) (offset : Nat) (w : Text) : Prop where
  name : IsName w
  /-- It is what follows the offset. -/
  there : w <+: t.drop offset
  /-- No word character stands in front of it. -/
  front : ∀ c ∈ (t.take offset).getLast?, isWord c = false
  /-- No word character stands behind it. -/
  back : ∀ c ∈ (t.drop (offset + w.length)).head?, isWord c = false

/-- The words stand in the text as whole words in this order, each at a place of its own. -/
def StandInOrder (t : Text) (words : List Text) : Prop :=
  ∃ places : List (Nat × Text), places.map Prod.snd = words ∧ (∀ p ∈ places, StandsAt t p.1 p.2) ∧
    places.Pairwise fun p q => p.1 < q.1 ∧ p.1 + p.2.length ≤ q.1

theorem standsAt_length (name : IsName w) (front : (lastOf none u).any isWord = false) (back : Stops isWord s) :
    StandsAt (u ++ (w ++ s)) u.length w where
  name := name
  there := by
    rw [List.drop_left]
    exact List.prefix_append w s
  front := by
    rw [List.take_left]
    rw [lastOf_eq_getLast?, Option.or_none] at front
    intro c hc
    rwa [Option.mem_def.mp hc] at front
  back := by
    rw [← List.append_assoc, ← List.length_append, List.drop_left]
    exact back

/-- The words follow each other between `before` and the end of the text, each of them as a whole word. -/
inductive WordsIn : (before : Option Char) → (t : Text) → (words : List Text) → Prop where
  | nil {before : Option Char} {t : Text} : WordsIn before t []
  | cons {before : Option Char} {u w s : Text} {words : List Text} (name : IsName w)
      (front : (lastOf before u).any isWord = false) (back : Stops isWord s)
      (rest : WordsIn (lastOf before (u ++ w)) s words) : WordsIn before (u ++ (w ++ s)) (w :: words)

namespace WordsIn

theorem prepend (h : WordsIn (lastOf before x) t words) : WordsIn before (x ++ t) words := by
  cases h with
  | nil => exact .nil
  | cons name front back rest =>
      rw [← List.append_assoc]
      refine .cons name ?_ back ?_
      · rwa [lastOf_append]
      · rwa [List.append_assoc, lastOf_append]

theorem behind (h : WordsIn before t words) (front : before.any isWord = before'.any isWord) :
    WordsIn before' t words := by
  induction h generalizing before' with
  | nil => exact .nil
  | @cons before u w s words name first back _ ih =>
      refine .cons name ?_ back (ih (Pattern.any_lastOf_congr front _))
      rwa [← Pattern.any_lastOf_congr front u]

theorem append (h : WordsIn before t words) (stops : Stops isWord s) : WordsIn before (t ++ s) words := by
  induction h with
  | nil => exact .nil
  | @cons before u w v words name front back _ ih =>
      rw [List.append_assoc, List.append_assoc]
      refine .cons name front ?_ ih
      cases v with
      | nil => exact stops
      | cons c v => exact stops_append (by simp) back

/-- Words that follow each other have places of their own. -/
theorem standInOrder (h : WordsIn none t words) : StandInOrder t words := by
  -- The induction needs the places in the whole text, so it carries the part `x` that is behind it.
  have behind : ∀ {before t}, WordsIn before t words → ∀ x, before = lastOf none x →
      ∃ places : List (Nat × Text), places.map Prod.snd = words ∧
        (∀ p ∈ places, x.length ≤ p.1 ∧ StandsAt (x ++ t) p.1 p.2) ∧
        places.Pairwise fun p q => p.1 < q.1 ∧ p.1 + p.2.length ≤ q.1 := by
    clear h
    intro before t h
    induction h with
    | nil => exact fun x _ => ⟨[], rfl, by simp, .nil⟩
    | @cons before u w s words name front back _ ih =>
        rintro x rfl
        obtain ⟨places, rfl, all, order⟩ := ih (x ++ (u ++ w)) (lastOf_append _ _ _).symm
        have first : StandsAt (x ++ (u ++ (w ++ s))) (x ++ u).length w := by
          rw [← lastOf_append] at front
          rw [← List.append_assoc]
          exact standsAt_length name front back
        refine ⟨((x ++ u).length, w) :: places, rfl, ?_, List.pairwise_cons.mpr ⟨?_, order⟩⟩
        · intro p hp
          rcases List.mem_cons.mp hp with rfl | hp
          · exact ⟨by simp, first⟩
          · obtain ⟨later, stands⟩ := all p hp
            simp only [List.length_append, List.append_assoc] at later stands
            exact ⟨by omega, stands⟩
        · intro p hp
          have later := (all p hp).1
          have nonempty := List.length_pos_of_ne_nil name.nonempty
          simp only [List.length_append] at later ⊢
          omega
  obtain ⟨places, same, all, order⟩ := behind h [] rfl
  exact ⟨places, same, fun p hp => (all p hp).2, order⟩

end WordsIn

end Text

end Pinout
