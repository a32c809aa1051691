import Pinout.Proofs.Verilog.PortReading

/-! # Headers with loose declarations

A loose declaration of a port is a direction with any words and any ranges behind it, and its name is the
last word. The parser foresees a type, a sign and a range in front of the name. Of other declarations it
reads what looks like one of these; which name it takes then is told here on the words and ranges.
-/

namespace Pinout.Verilog

open Pattern (SpellsOne)

/-- What stands between brackets. -/
structure Bracketed where
  text : Text
  unbracketed : ∀ c ∈ text, c ≠ '[' ∧ c ≠ ']'
  commentFree : CommentFree text
  noDirection : directionWord.search? text = none

/-- A part of a loose declaration. -/
inductive Item where
  | word (name : Name)
  | range (range : Bracketed)

def Item.tokens : Item → List Token
  | word name => [.word name.text]
  | range r => [.mark ['['], .mark r.text, .mark [']']]

def itemTokens (items : List Item) : List Token :=
  items.flatMap Item.tokens

/-- A direction with anything behind it, and a last word. -/
structure LooseDeclaration where
  direction : Name
  directs : SpellsOne directionKeywords direction.text
  /-- What stands between the direction and the last word. -/
  items : List Item
  name : Name

/-- A module with loose declarations. -/
structure LooseHeader where
  name : Name
  ports : List LooseDeclaration

def LooseDeclaration.parts (d : LooseDeclaration) : List Item :=
  .word d.direction :: (d.items ++ [.word d.name])

def LooseHeader.tokens (h : LooseHeader) : List Token :=
  .word "module" :: .word h.name.text :: .mark ['('] ::
    (Token.separated [','] (h.ports.map fun d => itemTokens d.parts) ++ [.mark [')'], .mark [';']])

/-- The name behind a range, if there is one, and what stands behind that name. -/
def nameBehindRange : List Item → Option (Name × List Item)
  | .range r :: .word name :: rest => if ':' ∈ r.text then some (name, rest) else none
  | .word name :: rest => some (name, rest)
  | _ => none

/-- What `next` tells behind one of the keywords, or else where the keyword stands. -/
def pastKeyword (keywords : List Text) (next : List Item → Option (Name × List Item)) :
    List Item → Option (Name × List Item)
  | .word w :: rest => (if SpellsOne keywords w.text then next rest else none).or (next (.word w :: rest))
  | items => next items

def signKeywords : List Text := ["signed"]

def nameBehindSign : List Item → Option (Name × List Item) :=
  pastKeyword signKeywords nameBehindRange

def nameBehindType : List Item → Option (Name × List Item) :=
  pastKeyword typeKeywords nameBehindSign

/-- A port that is found in a declaration. -/
structure Found where
  /-- The direction in front of it. -/
  direction : Name
  name : Name
  /-- What stands behind the name. -/
  behind : List Item

/-- The name that is read is one of the words, and the rest is told truly. -/
def Splits (next : List Item → Option (Name × List Item)) : Prop :=
  ∀ items name behind, next items = some (name, behind) → ∃ front, items = front ++ .word name :: behind

theorem splits_nameBehindRange : Splits nameBehindRange := by
  intro items name behind h
  fun_cases nameBehindRange items with
  | case1 r name' rest colon =>
      simp only [nameBehindRange, colon, if_true, Option.some.injEq, Prod.mk.injEq] at h
      obtain ⟨rfl, rfl⟩ := h
      exact ⟨[.range r], rfl⟩
  | case2 r name' rest colon =>
      simp [nameBehindRange, colon] at h
  | case3 name' rest =>
      cases h
      exact ⟨[], rfl⟩
  | case4 => simp_all [nameBehindRange]

theorem Splits.pastKeyword {next : List Item → Option (Name × List Item)} (h : Splits next) (keywords : List Text) :
    Splits (pastKeyword keywords next) := by
  intro items name behind told
  cases items with
  | nil => exact h _ _ _ told
  | cons item rest =>
      cases item with
      | range r => exact h _ _ _ told
      | word w =>
          rcases Option.or_eq_some_iff.mp told with passed | ⟨-, stayed⟩
          · split at passed
            · obtain ⟨front, rfl⟩ := h _ _ _ passed
              exact ⟨.word w :: front, rfl⟩
            · cases passed
          · exact h _ _ _ stayed

theorem splits_nameBehindType : Splits nameBehindType :=
  (splits_nameBehindRange.pastKeyword signKeywords).pastKeyword typeKeywords

def foundIn : List Item → List Found
  | [] => []
  | .range _ :: rest => foundIn rest
  | .word w :: rest =>
    if SpellsOne directionKeywords w.text then
      match _told : nameBehindType rest with
      | some (name, behind) => ⟨w, name, behind⟩ :: foundIn behind
      | none => foundIn rest
    else foundIn rest
termination_by items => items.length
decreasing_by
  · simp
  · obtain ⟨front, rfl⟩ := splits_nameBehindType _ _ _ _told
    simp
    omega
  · simp
  · simp

def LooseDeclaration.found (d : LooseDeclaration) : List Found :=
  foundIn d.parts

def Found.pin (f : Found) : Except UnknownDirection (Text × Direction) := do
  return (f.name.text, ← Direction.ofKeyword f.direction.text)

theorem exists_of_mem_foundIn {items : List Item} {f : Found} (h : f ∈ foundIn items) :
    ∃ front middle, items = front ++ .word f.direction :: (middle ++ .word f.name :: f.behind) := by
  fun_induction foundIn items with
  | case1 => cases h
  | case2 r rest ih =>
      obtain ⟨front, middle, rfl⟩ := ih h
      exact ⟨.range r :: front, middle, rfl⟩
  | case3 w rest directs name behind told ih =>
      obtain ⟨middle, rfl⟩ := splits_nameBehindType _ _ _ told
      rcases List.mem_cons.mp h with rfl | h
      · exact ⟨[], middle, rfl⟩
      · obtain ⟨front, middle', rfl⟩ := ih h
        exact ⟨.word w :: (middle ++ .word name :: front), middle', by simp⟩
  | case4 w rest directs told ih =>
      obtain ⟨front, middle, rfl⟩ := ih h
      exact ⟨.word w :: front, middle, rfl⟩
  | case5 w rest other ih =>
      obtain ⟨front, middle, rfl⟩ := ih h
      exact ⟨.word w :: front, middle, rfl⟩

/-- A name, or a range with a colon and a name. -/
inductive Ranged : List Item → Prop
  | name (name : Name) : Ranged [.word name]
  | range {r : Bracketed} (colon : ':' ∈ r.text) (name : Name) : Ranged [.range r, .word name]

/-- One of the keywords may stand in front. -/
inductive Led (keywords : List Text) (Rest : List Item → Prop) : List Item → Prop
  | plain {items : List Item} (rest : Rest items) : Led keywords Rest items
  | keyword {w : Name} {items : List Item} (spells : SpellsOne keywords w.text) (rest : Rest items) :
      Led keywords Rest (.word w :: items)

/-- What the parser foresees behind a direction: a type, a sign and a range, each of them or not, and a
name. -/
def Foreseen : List Item → Prop :=
  Led typeKeywords (Led signKeywords Ranged)

/-- Nothing, or a range that no name is read behind. -/
inductive Blocked : List Item → Prop
  | nil : Blocked []
  | colonless {r : Bracketed} (colonless : ':' ∉ r.text) (rest : List Item) : Blocked (.range r :: rest)
  | last (r : Bracketed) : Blocked [.range r]
  | ranges (r r' : Bracketed) (rest : List Item) : Blocked (.range r :: .range r' :: rest)

/-- Behind each direction stands what the parser foresees, or something that it does not get past. -/
def Understood (items : List Item) : Prop :=
  ∀ front w rest, items = front ++ .word w :: rest → SpellsOne directionKeywords w.text →
    Foreseen rest ∨ Blocked rest

theorem not_spellsOne_both {keywords others : List Text} {w : Text}
    (keys : ∀ k ∈ keywords ++ others, ∀ c ∈ k, Pattern.isKeyLetter c = true) (disjoint : ∀ k ∈ keywords, k ∉ others)
    (first : SpellsOne keywords w) : ¬ SpellsOne others w := by
  rintro ⟨l, hl, second⟩
  obtain ⟨k, hk, first⟩ := first
  have same := first.unique (keys k (by simp [hk])) (keys l (by simp [hl])) second
  exact disjoint k hk (same ▸ hl)

/-- A word is never passed over for nothing. -/
def StopsAtWord (next : List Item → Option (Name × List Item)) : Prop :=
  ∀ w rest, next (.word w :: rest) ≠ none

theorem StopsAtWord.pastKeyword {next : List Item → Option (Name × List Item)} (h : StopsAtWord next)
    (keywords : List Text) : StopsAtWord (pastKeyword keywords next) := by
  intro w rest none
  exact h w rest (Option.or_eq_none_iff.mp none).2

theorem pastKeyword_eq_none_iff {next : List Item → Option (Name × List Item)} (h : StopsAtWord next)
    (keywords : List Text) (items : List Item) : pastKeyword keywords next items = none ↔ next items = none := by
  cases items with
  | nil => rfl
  | cons item rest =>
      cases item with
      | range r => rfl
      | word w => exact iff_of_false (h.pastKeyword keywords w rest) (h w rest)

theorem nameBehindRange_eq_none_iff (items : List Item) : nameBehindRange items = none ↔ Blocked items := by
  constructor
  · intro h
    match items, h with
    | [], _ => exact .nil
    | [.range r], _ => exact .last r
    | .range r :: .range r' :: rest, _ => exact .ranges r r' rest
    | .range r :: .word name :: rest, h =>
        refine .colonless (fun colon => ?_) _
        simp [nameBehindRange, colon] at h
  · rintro (_ | ⟨colonless, _ | ⟨_ | _, _⟩⟩ | _ | _)
    all_goals first | rfl | exact if_neg colonless

theorem nameBehindType_eq_none_iff (items : List Item) : nameBehindType items = none ↔ Blocked items := by
  have stops : StopsAtWord nameBehindRange := fun _ _ h => by cases h
  have signed : StopsAtWord nameBehindSign := stops.pastKeyword signKeywords
  rw [nameBehindType, pastKeyword_eq_none_iff signed, nameBehindSign, pastKeyword_eq_none_iff stops,
    nameBehindRange_eq_none_iff]

theorem pastKeyword_eq_end_iff {keywords : List Text} {next : List Item → Option (Name × List Item)}
    {Rest : List Item → Prop} (h : ∀ items, (∃ name, next items = some (name, [])) ↔ Rest items)
    (nothing : next [] = none)
    (other : ∀ w rest, SpellsOne keywords w.text → next (.word w :: rest) = some (w, rest)) (items : List Item) :
    (∃ name, pastKeyword keywords next items = some (name, [])) ↔ Led keywords Rest items := by
  constructor
  · rintro ⟨name, told⟩
    match items, told with
    | [], told => exact .plain ((h _).mp ⟨name, told⟩)
    | .range r :: rest, told => exact .plain ((h _).mp ⟨name, told⟩)
    | .word w :: rest, told =>
        rcases Option.or_eq_some_iff.mp told with passed | ⟨-, stayed⟩
        · split at passed
          · exact .keyword ‹_› ((h _).mp ⟨name, passed⟩)
          · cases passed
        · exact .plain ((h _).mp ⟨name, stayed⟩)
  · rintro (foreseen | ⟨spells, foreseen⟩)
    · obtain ⟨name, told⟩ := (h _).mpr foreseen
      match items, told with
      | [], told => exact ⟨name, told⟩
      | .range r :: rest, told => exact ⟨name, told⟩
      | .word w :: rest, told =>
          refine ⟨name, ?_⟩
          by_cases spells : SpellsOne keywords w.text
          · obtain ⟨rfl, rfl⟩ := Prod.mk.inj (Option.some.inj ((other w rest spells).symm.trans told))
            simp [pastKeyword, spells, nothing, told]
          · simp [pastKeyword, spells, told]
    · obtain ⟨name, told⟩ := (h _).mpr foreseen
      exact ⟨name, by simp [pastKeyword, spells, told]⟩

theorem nameBehindRange_eq_end_iff (items : List Item) :
    (∃ name, nameBehindRange items = some (name, [])) ↔ Ranged items := by
  constructor
  · rintro ⟨name, told⟩
    fun_cases nameBehindRange items with
    | case1 r name' rest colon =>
        simp only [nameBehindRange, colon, if_true, Option.some.injEq, Prod.mk.injEq] at told
        obtain ⟨rfl, rfl⟩ := told
        exact .range colon name'
    | case2 r name' rest colon => simp [nameBehindRange, colon] at told
    | case3 name' rest =>
        cases told
        exact .name _
    | case4 => simp_all [nameBehindRange]
  · rintro (name | ⟨colon, name⟩)
    · exact ⟨name, rfl⟩
    · exact ⟨name, if_pos colon⟩

theorem nameBehindType_eq_end_iff (items : List Item) :
    (∃ name, nameBehindType items = some (name, [])) ↔ Foreseen items := by
  refine pastKeyword_eq_end_iff (pastKeyword_eq_end_iff nameBehindRange_eq_end_iff rfl fun _ _ _ => rfl) rfl
    (fun w rest spells => ?_) items
  have unsigned : ¬ SpellsOne signKeywords w.text := not_spellsOne_both (by decide) (by decide) spells
  simp [pastKeyword, unsigned, nameBehindRange]

theorem Led.direction_last {keywords : List Text} {Rest : List Item → Prop}
    (keys : ∀ k ∈ keywords ++ directionKeywords, ∀ c ∈ k, Pattern.isKeyLetter c = true)
    (disjoint : ∀ k ∈ keywords, k ∉ directionKeywords)
    (h : ∀ front w rest, Rest (front ++ .word w :: rest) → SpellsOne directionKeywords w.text → rest = [])
    (front : List Item) (w : Name) (rest : List Item) (led : Led keywords Rest (front ++ .word w :: rest))
    (directs : SpellsOne directionKeywords w.text) : rest = [] := by
  generalize all : front ++ .word w :: rest = items at led
  cases led with
  | plain foreseen => exact h front w rest (all ▸ foreseen) directs
  | keyword spells foreseen =>
      cases front with
      | nil =>
          obtain ⟨same, rfl⟩ := List.cons.inj all
          obtain rfl := Item.word.inj same
          exact absurd directs (not_spellsOne_both keys disjoint spells)
      | cons item front =>
          obtain ⟨-, rfl⟩ := List.cons.inj all
          exact h front w rest foreseen directs

theorem Foreseen.direction_last {front : List Item} {w : Name} {rest : List Item}
    (h : Foreseen (front ++ .word w :: rest)) (directs : SpellsOne directionKeywords w.text) : rest = [] := by
  refine Led.direction_last (by decide) (by decide) ?_ front w rest h directs
  refine Led.direction_last (by decide) (by decide) ?_
  intro front w rest ranged _
  generalize all : front ++ .word w :: rest = items at ranged
  have last : ∀ name : Name, front ++ .word w :: rest = [.word name] → rest = [] := by
    intro name h
    cases front with
    | nil => exact (List.cons.inj h).2
    | cons item front => exact absurd (List.cons.inj h).2 (by simp)
  cases ranged with
  | name name => exact last name all
  | range colon name =>
      rcases front with _ | ⟨item, _ | ⟨item', front⟩⟩ <;> simp_all

theorem understood_cons {item : Item} {rest : List Item}
    (h : ∀ w, item = .word w → SpellsOne directionKeywords w.text → Foreseen rest ∨ Blocked rest) :
    Understood (item :: rest) ↔ Understood rest := by
  constructor
  · rintro all front w behind rfl
    exact all (item :: front) w behind rfl
  · intro others front w behind split directs
    cases front with
    | nil =>
        obtain ⟨rfl, rfl⟩ := List.cons.inj split
        exact h w rfl directs
    | cons first front => exact others front w behind (List.cons.inj split).2 directs

/-- All ports that are found are named by the last word if and only if the declaration is understood. -/
theorem foundIn_last_iff (items : List Item) : (∀ f ∈ foundIn items, f.behind = []) ↔ Understood items := by
  fun_induction foundIn items with
  | case1 => simp [Understood]
  | case2 r rest ih =>
      rw [ih, understood_cons]
      rintro w ⟨⟩
  | case3 w rest directs name behind told ih =>
      constructor
      · intro last
        obtain rfl : behind = [] := last ⟨w, name, behind⟩ (by simp)
        have foreseen := (nameBehindType_eq_end_iff rest).mp ⟨name, told⟩
        rintro (_ | ⟨item, front⟩) v after split directs'
        · obtain ⟨-, rfl⟩ := List.cons.inj split
          exact .inl foreseen
        · obtain ⟨-, rfl⟩ := List.cons.inj split
          obtain rfl := foreseen.direction_last directs'
          exact .inr .nil
      · intro understood
        rcases understood [] w rest rfl directs with foreseen | blocked
        · obtain ⟨name', told'⟩ := (nameBehindType_eq_end_iff rest).mpr foreseen
          obtain ⟨rfl, rfl⟩ := Prod.mk.inj (Option.some.inj (told.symm.trans told'))
          simp [foundIn]
        · rw [(nameBehindType_eq_none_iff rest).mpr blocked] at told
          cases told
  | case4 w rest directs told ih =>
      rw [ih, understood_cons]
      exact fun _ _ _ => .inr ((nameBehindType_eq_none_iff rest).mp told)
  | case5 w rest other ih =>
      rw [ih, understood_cons]
      rintro v ⟨⟩ directs
      exact absurd directs other

namespace LooseDeclaration

variable (d : LooseDeclaration)

/-- A declaration that is understood gives no port a name but its last word. -/
theorem name_eq_of_understood (h : Understood d.parts) {f : Found} (hf : f ∈ d.found) : f.name = d.name := by
  obtain ⟨front, middle, split⟩ := exists_of_mem_foundIn hf
  rw [(foundIn_last_iff d.parts).mpr h f hf, parts, ← List.cons_append, ← List.cons_append, ← List.append_assoc] at split
  obtain ⟨-, last⟩ := List.append_inj' split rfl
  exact (Item.word.inj (List.cons.inj last).1).symm

/-- A declaration that is not understood gives a port one of the words in front of its name. -/
theorem exists_of_not_understood (h : ¬ Understood d.parts) : ∃ f ∈ d.found, .word f.name ∈ d.items := by
  simp only [← foundIn_last_iff, not_forall] at h
  obtain ⟨f, hf, more⟩ := h
  refine ⟨f, hf, ?_⟩
  obtain ⟨front, middle, split⟩ := exists_of_mem_foundIn hf
  obtain ⟨behind, last, text⟩ := (List.eq_nil_or_concat f.behind).resolve_left more
  have whole : (.word d.direction :: d.items) ++ [.word d.name] =
      (front ++ .word f.direction :: (middle ++ .word f.name :: behind)) ++ [last] := by
    rw [parts, text] at split
    simpa using split
  obtain ⟨split, -⟩ := List.append_inj' whole rfl
  cases front with
  | nil => simp [(List.cons.inj split).2]
  | cons item front => simp [(List.cons.inj split).2]

end LooseDeclaration

end Pinout.Verilog
