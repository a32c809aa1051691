import Mathlib.Data.List.Forall2
import Pinout.Proofs.Pattern.Words

/-! # Choices of keywords

A word spells at most one keyword. So a choice of keywords that has to end at a boundary takes a word
that spells one of them, and where it does not go on there, or where the word spells none, it has no
reading.
-/

namespace Pinout.Pattern

variable {p q : Pattern} {before : Option Char} {k l s w : Text} {keywords : List Text}
  {kept : Text → List (Nat × Text)}

instance (k w : Text) : Decidable (Spells k w) :=
  inferInstanceAs (Decidable (List.Forall₂ _ k w))

theorem letter_unique {a b c : Char} (ha : isKeyLetter a = true) (hb : isKeyLetter b = true)
    (first : isVariant a c = true) (second : isVariant b c = true) : a = b := by
  by_cases ascii : c.toNat < 128
  · rw [← toLower_of_isVariant first ascii, toLower_of_isVariant second ascii]
  · have small : ∀ d, isKeyLetter d = true → ¬ c.toLower = d := by
      rintro _ key rfl
      rw [toLower_of_not_ascii (Nat.le_of_not_lt ascii)] at key
      exact ascii (ascii_of_isKeyLetter key)
    simp only [isVariant, Bool.or_eq_true, Bool.and_eq_true, beq_iff_eq, small a ha, small b hb,
      false_or] at first second
    rcases first with (⟨rfl, rfl | rfl⟩ | ⟨rfl, rfl⟩) | ⟨rfl, rfl⟩
    all_goals simpa [eq_comm] using second

theorem Spells.unique (hk : ∀ c ∈ k, isKeyLetter c = true) (hl : ∀ c ∈ l, isKeyLetter c = true)
    (first : Spells k w) (second : Spells l w) : k = l := by
  induction first generalizing l with
  | nil =>
      cases second
      rfl
  | cons variant _ ih =>
      cases second with
      | cons variant' rest =>
          rw [letter_unique (hk _ (by simp)) (hl _ (by simp)) variant variant',
            ih (fun c hc => hk c (by simp [hc])) (fun c hc => hl c (by simp [hc])) rest]

theorem beginsWord_of_keyword (same : ∀ before t, p.readings before t = (boundary ++ (keyword k ++ q)).readings before t)
    (key : ∀ c ∈ k, isKeyLetter c = true) (nonempty : k ≠ []) : p.BeginsWord := by
  obtain ⟨letter, k, rfl⟩ := List.exists_cons_of_ne_nil nonempty
  refine beginsWord_of_boundary same rfl fun c opened => ?_
  have variant : isVariant letter c = true := by simpa [keyword, opens, nullable] using opened
  exact isWord_of_isVariant (key letter List.mem_cons_self) variant

/-- A keyword does not read the spelling of another one if neither begins with the other. -/
theorem Spells.refuses (hk : ∀ c ∈ k, isKeyLetter c = true) (hl : ∀ c ∈ l, isKeyLetter c = true)
    (differs : ¬ l <+: k ∧ ¬ k <+: l) (h : Spells k w) : (keyword l).Refuses before (w ++ s) := by
  refine refuses_iff.mpr fun a ha => ?_
  have spelled := (mem_keyword ha).2
  have front := front_of_mem ha
  rcases Nat.le_total a.text.length w.length with short | long
  · obtain ⟨more, rfl⟩ := List.prefix_of_prefix_length_le front (List.prefix_append w s) short
    have inside := List.forall₂_take_append _ _ _ h
    apply differs.1
    rw [spelled.unique hl (fun c hc => hk c (List.mem_of_mem_take hc)) inside]
    exact List.take_prefix _ _
  · obtain ⟨more, text⟩ := List.prefix_of_prefix_length_le (List.prefix_append w s) front long
    rw [← text] at spelled
    have inside := List.forall₂_take_append _ _ _ spelled
    apply differs.2
    rw [h.unique hk (fun c hc => hl c (List.mem_of_mem_take hc)) inside]
    exact List.take_prefix _ _

def SpellsOne (keywords : List Text) (w : Text) : Prop :=
  ∃ k ∈ keywords, Spells k w

instance (keywords : List Text) (w : Text) : Decidable (SpellsOne keywords w) :=
  inferInstanceAs (Decidable (∃ k ∈ keywords, Spells k w))

/-- Up to a boundary the pattern reads the words that spell one of the keywords, and no others. -/
structure ReadsOne (p : Pattern) (keywords : List Text) (kept : Text → List (Nat × Text)) : Prop where
  takes : ∀ {before w s}, SpellsOne keywords w → p.Takes before w (kept w) s
  refuses : ∀ {q before w s}, (∀ c ∈ w, Text.isWord c = true) → Stops Text.isWord s →
    (SpellsOne keywords w → Refuses q (lastOf before w) s) → (p ++ (boundary ++ q)).Refuses before (w ++ s)

theorem readsOne_keyword (key : ∀ c ∈ k, isKeyLetter c = true) (nonempty : k ≠ []) :
    ReadsOne (keyword k) [k] fun _ => [] where
  takes := by
    rintro before w s ⟨_, hk, spells⟩
    obtain rfl := List.mem_singleton.mp hk
    exact takes_keyword spells
  refuses word stops h :=
    refuses_keyword_append key nonempty word stops fun spells => h ⟨k, by simp, spells⟩

theorem ReadsOne.cons (h : ReadsOne p keywords fun _ => []) (key : ∀ c ∈ k, isKeyLetter c = true)
    (nonempty : k ≠ []) (keys : ∀ l ∈ keywords, ∀ c ∈ l, isKeyLetter c = true)
    (differs : ∀ l ∈ keywords, ¬ k <+: l ∧ ¬ l <+: k) :
    ReadsOne (keyword k <|> p) (k :: keywords) fun _ => [] where
  takes := by
    rintro before w s ⟨l, hl, spells⟩
    rcases List.mem_cons.mp hl with rfl | hl
    · exact .left (takes_keyword spells)
    · exact .right (spells.refuses (keys l hl) key (differs l hl)) (h.takes ⟨l, hl, spells⟩)
  refuses word stops hq := by
    refine refuses_orElse_append.mpr ⟨?_, h.refuses word stops ?_⟩
    · exact refuses_keyword_append key nonempty word stops fun spells => hq ⟨k, by simp, spells⟩
    · rintro ⟨l, hl, spells⟩
      exact hq ⟨l, by simp [hl], spells⟩

theorem ReadsOne.group (h : ReadsOne p keywords fun _ => []) (index : Nat) :
    ReadsOne (.group index p) keywords fun w => [(index, w)] where
  takes one := (h.takes one).group index
  refuses word stops hq := refuses_group_append.mpr (h.refuses word stops hq)

end Pinout.Pattern
