import Pinout.Proofs.Extraction
import Pinout.Proofs.Vhdl.GenericClause

/-! # Reading generics

The generic pattern takes a declaration whole, with its range and its default, if what stands behind
the declaration is no part of it.
-/

namespace Pinout.Vhdl

open Pattern (Spells Stops stops_cons)

variable {before : Option Char} {s t g value : Text} {c : Char}

def boundsPart : Pattern :=
  .blanks ++ .char '(' ++ .blanks ++ .group 3 bound ++ .gap ++
    .group 4 (.keyword "downto" <|> .keyword "to") ++ .gap ++ .group 5 bound ++ .blanks ++ .char ')'

def defaultPart : Pattern :=
  .blanks ++ .exactly ":=" ++ .blanks ++ .group 6 (.atLeastOne (· != ';'))

def genericTail : Pattern :=
  .optional boundsPart ++ .optional defaultPart

theorem readings_genericPattern (before : Option Char) (t : Text) :
    genericPattern.readings before t = (.group 1 .word ++ (.blanks ++ (.char ':' ++ (.blanks ++
      (.group 2 .word ++ genericTail)))) : Pattern).readings before t := by
  simp only [genericPattern, Pattern.readings_append_assoc]
  rfl

theorem genericPattern_skipsBlanks : genericPattern.SkipsBlanks where
  reads := rfl
  closed _ := Text.forall_blank (genericPattern.opens · = false) (by decide +kernel)

/-- Whether a character may stand in a bound. -/
def inBound (c : Char) : Bool :=
  !Text.isBlank c && c != '(' && c != ')'

/-- A range as it is read, with the blanks around its parts. -/
structure SpacedBounds where
  margin : Text
  inner : Text
  first : Text
  gap : Text
  order : Text
  gap' : Text
  second : Text
  tail : Text
  blanks : ∀ x ∈ [margin, inner, gap, gap', tail], ∀ c ∈ x, Text.isBlank c = true
  gaps : gap ≠ [] ∧ gap' ≠ []
  bounds : ∀ x ∈ [first, second], x ≠ [] ∧ ∀ c ∈ x, inBound c = true
  spells : Spells "downto" order ∨ Spells "to" order

def SpacedBounds.text (b : SpacedBounds) : Text :=
  b.margin ++ (['('] ++ (b.inner ++ (b.first ++ (b.gap ++ (b.order ++ (b.gap' ++ (b.second ++ (b.tail ++ [')']))))))))

def SpacedBounds.kept (b : SpacedBounds) : List (Nat × Text) :=
  [(5, b.second), (4, b.order), (3, b.first)]

theorem stops_inBound_of_blank (nonempty : g ≠ []) (blank : ∀ c ∈ g, Text.isBlank c = true) : Stops inBound (g ++ s) :=
  Pattern.stops_append nonempty fun c hc => by simp [inBound, blank c (List.mem_of_mem_head? hc)]

theorem stops_blank_of_inBound (nonempty : t ≠ []) (inside : ∀ c ∈ t, inBound c = true) : Stops Text.isBlank (t ++ s) :=
  Pattern.stops_append nonempty fun c hc => by
    have visible := inside c (List.mem_of_mem_head? hc)
    simp_all [inBound]

theorem stops_inBound_closing (blank : ∀ c ∈ g, Text.isBlank c = true) (s : Text) : Stops inBound (g ++ ')' :: s) := by
  cases g with
  | nil => exact stops_cons.mpr (by decide)
  | cons c g => exact stops_inBound_of_blank (by simp) blank

theorem isWord_of_order (h : Spells "downto" t ∨ Spells "to" t) : ∀ c ∈ t, Text.isWord c = true :=
  h.elim (·.word (by decide)) (·.word (by decide))

theorem stops_blank_of_order (h : Spells "downto" t ∨ Spells "to" t) : Stops Text.isBlank (t ++ s) := by
  have nonempty : t ≠ [] := h.elim (·.ne_nil (by decide)) (·.ne_nil (by decide))
  refine Pattern.stops_append nonempty fun c hc => Bool.eq_false_iff.mpr fun blank => ?_
  have plain := Text.isWord_of_isBlank blank
  rw [isWord_of_order h c (List.mem_of_mem_head? hc)] at plain
  cases plain

theorem takes_order (h : Spells "downto" t ∨ Spells "to" t) :
    (.keyword "downto" <|> .keyword "to" : Pattern).Takes before t [] s := by
  rcases h with spells | spells
  · exact .left (Pattern.takes_keyword spells)
  · exact .right (spells.refuses (by decide) (by decide) (by decide)) (Pattern.takes_keyword spells)

theorem SpacedBounds.takes (b : SpacedBounds) : boundsPart.Takes before b.text b.kept s := by
  obtain ⟨margin, inner, first, gap, order, gap', second, tail, blanks, gaps, bounds, spells⟩ := b
  obtain ⟨first_ne, first_in⟩ := bounds first (by simp)
  obtain ⟨second_ne, second_in⟩ := bounds second (by simp)
  have tail_blank := blanks tail (by simp)
  have closing : ∀ before, (.blanks ++ .char ')' : Pattern).Takes before (tail ++ [')']) _ s := fun _ =>
    .append (Pattern.takes_blanks tail_blank (stops_cons.mpr (by decide))) Pattern.takes_char
  have low : ∀ before, (.gap ++ (.group 5 bound ++ (.blanks ++ .char ')')) : Pattern).Takes before
      (gap' ++ (second ++ (tail ++ [')']))) _ s := fun _ =>
    .append (Pattern.takes_atLeastOne gaps.2 (blanks gap' (by simp))
        (by rw [List.append_assoc]; exact stops_blank_of_inBound second_ne second_in))
      (.append ((Pattern.takes_atLeastOne second_ne second_in (by simpa using stops_inBound_closing tail_blank s)).group 5) (closing _))
  have middle : ∀ before, (.gap ++ (.group 4 (.keyword "downto" <|> .keyword "to") ++ (.gap ++
      (.group 5 bound ++ (.blanks ++ .char ')')))) : Pattern).Takes before
      (gap ++ (order ++ (gap' ++ (second ++ (tail ++ [')']))))) _ s := fun _ =>
    .append (Pattern.takes_atLeastOne gaps.1 (blanks gap (by simp))
      (by rw [List.append_assoc]; exact stops_blank_of_order spells)) (.append ((takes_order spells).group 4) (low _))
  have high : ∀ before, (.char '(' ++ (.blanks ++ (.group 3 bound ++ (.gap ++
      (.group 4 (.keyword "downto" <|> .keyword "to") ++ (.gap ++
      (.group 5 bound ++ (.blanks ++ .char ')'))))))) : Pattern).Takes before
      (['('] ++ (inner ++ (first ++ (gap ++ (order ++ (gap' ++ (second ++ (tail ++ [')'])))))))) _ s := fun _ =>
    .append Pattern.takes_char (.append (Pattern.takes_blanks (blanks inner (by simp))
        (by rw [List.append_assoc]; exact stops_blank_of_inBound first_ne first_in))
      (.append ((Pattern.takes_atLeastOne first_ne first_in
        (by rw [List.append_assoc]; exact stops_inBound_of_blank gaps.1 (blanks gap (by simp)))).group 3) (middle _)))
  simp only [boundsPart, Pattern.Takes.assoc]
  exact .append (Pattern.takes_blanks (blanks margin (by simp)) (stops_cons.mpr (by decide))) (high _)

theorem mem_order {a : Reading} (h : a ∈ (.keyword "downto" <|> .keyword "to" : Pattern).readings before t) :
    a.kept = [] ∧ (Spells "downto" a.text ∨ Spells "to" a.text) := by
  rcases List.mem_append.mp h with read | read
  · exact (Pattern.mem_keyword read).imp_right .inl
  · exact (Pattern.mem_keyword read).imp_right .inr

theorem exists_of_mem_boundsPart {a : Reading} (h : a ∈ boundsPart.readings before t) :
    ∃ b : SpacedBounds, a = ⟨b.text, b.kept⟩ := by
  simp only [boundsPart, Pattern.readings_append_assoc] at h
  obtain ⟨margin, hmargin, _, h₁, rfl⟩ := Pattern.mem_append.mp h
  obtain ⟨_, hopening, _, h₂, rfl⟩ := Pattern.mem_append.mp h₁
  obtain ⟨-, rfl⟩ := Pattern.mem_char.mp hopening
  obtain ⟨inner, hinner, _, h₃, rfl⟩ := Pattern.mem_append.mp h₂
  obtain ⟨_, grouped_first, _, h₄, rfl⟩ := Pattern.mem_append.mp h₃
  obtain ⟨first, hfirst, rfl⟩ := List.mem_map.mp grouped_first
  obtain ⟨gap, hgap, _, h₅, rfl⟩ := Pattern.mem_append.mp h₄
  obtain ⟨_, grouped_order, _, h₆, rfl⟩ := Pattern.mem_append.mp h₅
  obtain ⟨order, horder, rfl⟩ := List.mem_map.mp grouped_order
  obtain ⟨gap', hgap', _, h₇, rfl⟩ := Pattern.mem_append.mp h₆
  obtain ⟨_, grouped_second, _, h₈, rfl⟩ := Pattern.mem_append.mp h₇
  obtain ⟨second, hsecond, rfl⟩ := List.mem_map.mp grouped_second
  obtain ⟨tail, htail, _, hclosing, rfl⟩ := Pattern.mem_append.mp h₈
  obtain ⟨-, rfl⟩ := Pattern.mem_char.mp hclosing
  obtain ⟨-, margin_blank, margin_kept⟩ := Pattern.mem_many.mp hmargin
  obtain ⟨-, inner_blank, inner_kept⟩ := Pattern.mem_many.mp hinner
  obtain ⟨first_ne, first_in, first_kept⟩ := Pattern.mem_atLeastOne hfirst
  obtain ⟨gap_ne, gap_blank, gap_kept⟩ := Pattern.mem_atLeastOne hgap
  obtain ⟨order_kept, spells⟩ := mem_order horder
  obtain ⟨gap'_ne, gap'_blank, gap'_kept⟩ := Pattern.mem_atLeastOne hgap'
  obtain ⟨second_ne, second_in, second_kept⟩ := Pattern.mem_atLeastOne hsecond
  obtain ⟨-, tail_blank, tail_kept⟩ := Pattern.mem_many.mp htail
  refine ⟨⟨margin.text, inner.text, first.text, gap.text, order.text, gap'.text, second.text, tail.text,
    by simpa using ⟨margin_blank, inner_blank, gap_blank, gap'_blank, tail_blank⟩, ⟨gap_ne, gap'_ne⟩,
    by simpa using ⟨⟨first_ne, first_in⟩, second_ne, second_in⟩, spells⟩, ?_⟩
  simp [Reading.append, Reading.keep, SpacedBounds.text, SpacedBounds.kept, margin_kept, inner_kept, first_kept, gap_kept,
    order_kept, gap'_kept, second_kept, tail_kept]

def Bounds.spaced (b : Bounds) : SpacedBounds where
  margin := []
  inner := []
  first := b.first.text
  gap := [' ']
  order := b.order.keyword
  gap' := [' ']
  second := b.second.text
  tail := []
  blanks := by decide
  gaps := by decide
  bounds := by
    have plain : ∀ bound : Bound, bound.text ≠ [] ∧ ∀ c ∈ bound.text, inBound c = true := fun bound =>
      ⟨bound.nonempty, fun c hc => by
        obtain ⟨visible, opening, closing, -⟩ := bound.plain c hc
        simp [inBound, visible, opening, closing]⟩
    exact List.forall_mem_cons.mpr ⟨plain b.first, List.forall_mem_singleton.mpr (plain b.second)⟩
  spells := by
    cases b.order with
    | descending => exact .inl (Spelling.spells ⟨"downto", rfl⟩)
    | ascending => exact .inr (Spelling.spells ⟨"to", rfl⟩)

def keptBounds : Option Bounds → List (Nat × Text)
  | none => []
  | some b => [(5, b.second.text), (4, b.order.keyword), (3, b.first.text)]

theorem takes_boundsPart (b : Bounds) :
    boundsPart.Takes before (rangeText (some b)) (keptBounds (some b)) s := by
  have text : rangeText (some b) = b.spaced.text := by
    simp [rangeText, Bounds.text, SpacedBounds.text, Bounds.spaced]
  rw [text]
  exact b.spaced.takes

theorem refuses_boundsPart (blank : ∀ c ∈ g, Text.isBlank c = true) (visible : Pattern.Stops Text.isBlank s)
    (stops : Pattern.Stops (· == '(') s) : boundsPart.Refuses before (g ++ s) := by
  simp only [boundsPart, Pattern.refuses_append_assoc]
  refine Pattern.refuses_many_run blank visible rfl (fun c blank => ?_) ?_
  · have plain := Text.forall_blank (· ≠ '(') (by decide) blank
    simpa [Pattern.char, Pattern.opens, Pattern.nullable] using plain
  · exact (Pattern.refuses_of_stops (p := .char '(') rfl stops).append

theorem closing_mem_of_mem_boundsPart {a : Reading} (h : a ∈ boundsPart.readings before t) : ')' ∈ a.text := by
  obtain ⟨b, rfl⟩ := exists_of_mem_boundsPart h
  simp [SpacedBounds.text]

theorem refuses_boundsPart_of_not_mem (h : ')' ∉ t) : boundsPart.Refuses before t :=
  Pattern.refuses_iff.mpr fun _ ha => h ((Pattern.front_of_mem ha).subset (closing_mem_of_mem_boundsPart ha))

theorem takes_defaultPart_spaced {h : Text} (blank : ∀ c ∈ g, Text.isBlank c = true) (blank' : ∀ c ∈ h, Text.isBlank c = true)
    (nonempty : value ≠ []) (visible : Pattern.Stops Text.isBlank value) (plain : ∀ c ∈ value, c ≠ ';')
    (stops : Pattern.Stops (· != ';') s) :
    defaultPart.Takes before (g ++ (":=".toList ++ (h ++ value))) [(6, value)] s := by
  have inside : ∀ c ∈ value, (c != ';') = true := fun c hc => bne_iff_ne.mpr (plain c hc)
  simp only [defaultPart, Pattern.Takes.assoc]
  exact .append (Pattern.takes_blanks blank (Pattern.stops_cons.mpr (by decide))) (.append
    Pattern.takes_exactly (.append (Pattern.takes_blanks blank' (Pattern.stops_append nonempty visible))
      ((Pattern.takes_atLeastOne nonempty inside stops).group 6)))

theorem takes_defaultPart (nonempty : value ≠ []) (visible : Pattern.Stops Text.isBlank value)
    (plain : ∀ c ∈ value, c ≠ ';') (stops : Pattern.Stops (· != ';') s) :
    defaultPart.Takes before (defaultMark ++ value) [(6, value)] s :=
  takes_defaultPart_spaced (g := [' ']) (h := [' ']) (by decide) (by decide) nonempty visible plain stops

theorem refuses_defaultPart_of_not_prefix (blank : ∀ c ∈ g, Text.isBlank c = true) (visible : Pattern.Stops Text.isBlank s)
    (unmarked : ¬ ":=".toList <+: s) : defaultPart.Refuses before (g ++ s) := by
  simp only [defaultPart, Pattern.refuses_append_assoc]
  refine Pattern.refuses_many_run blank visible rfl (fun c blank => ?_) (Pattern.refuses_exactly unmarked).append
  have plain := Text.forall_blank (· ≠ ':') (by decide) blank
  simpa [Pattern.exactly, Pattern.char, Pattern.opens, Pattern.nullable] using plain

theorem refuses_defaultPart (blank : ∀ c ∈ g, Text.isBlank c = true) (visible : Pattern.Stops Text.isBlank s)
    (stops : Pattern.Stops (· == ':') s) : defaultPart.Refuses before (g ++ s) := by
  refine refuses_defaultPart_of_not_prefix blank visible fun marked => ?_
  obtain ⟨rest, rfl⟩ := marked
  exact absurd (stops ':' rfl) (by decide)

def keptDefault : Option Text → List (Nat × Text)
  | none => []
  | some value => [(6, value)]

theorem takes_genericPattern (d : GenericDeclaration) {tail : Text} {kept : List (Nat × Text)}
    (wordEnds : Pattern.Stops Text.isWord (tail ++ s)) (h : ∀ before, genericTail.Takes before tail kept s) :
    genericPattern.Takes before (d.name.text ++ (typeMark ++ (d.type.text ++ tail)))
      (kept ++ [(2, d.type.text)] ++ [(1, d.name.text)]) s := by
  have space : ∀ c ∈ [' '], Text.isBlank c = true := by decide
  have text : typeMark ++ (d.type.text ++ tail) = [' '] ++ ([':'] ++ ([' '] ++ (d.type.text ++ tail))) := rfl
  have typed : ∀ before, (.group 2 .word ++ genericTail : Pattern).Takes before (d.type.text ++ tail)
      (kept ++ [(2, d.type.text)]) s := fun _ =>
    ((Pattern.takes_atLeastOne d.type.nonempty d.type.word wordEnds).group 2).append (h _)
  have typeStops : Pattern.Stops Text.isBlank ((d.type.text ++ tail) ++ s) := by
    rw [List.append_assoc]
    exact d.type.stops_blank _
  have named : (.group 1 .word : Pattern).Takes before d.name.text [(1, d.name.text)]
      (([' '] ++ ([':'] ++ ([' '] ++ (d.type.text ++ tail)))) ++ s) :=
    (Pattern.takes_atLeastOne d.name.nonempty d.name.word (Pattern.stops_cons.mpr (by decide))).group 1
  have taken := named.append (.append (Pattern.takes_blanks space (Pattern.stops_cons.mpr (by decide)))
    (.append Pattern.takes_char (.append (Pattern.takes_blanks space typeStops) (typed _))))
  rw [Pattern.Takes, readings_genericPattern, text]
  simpa only [Pattern.Takes, List.append_nil] using taken

theorem takes_genericTail (bounds : Option Bounds) {tail : Text} {kept : List (Nat × Text)}
    (refused : ∀ before, boundsPart.Refuses before (tail ++ s))
    (h : ∀ before, (Pattern.optional defaultPart).Takes before tail kept s) :
    genericTail.Takes before (rangeText bounds ++ tail) (kept ++ keptBounds bounds) s := by
  cases bounds with
  | none =>
      rw [keptBounds, List.append_nil]
      exact .skip (refused before).append (h before)
  | some b => exact .append (.left (takes_boundsPart b)) (h _)

/-- What is kept of a generic declares it. -/
def Declares (g : Generic) (r : Reading) : Prop :=
  ∀ found : Match, found.reading = r → genericOf found = g

theorem declares_kept (name type text : Text) (bounds : Option Bounds) (value : Option Text) :
    Declares { name, dataType := some type, width := bounds.map Bounds.text, default := value.map Text.trim }
      ⟨text, keptDefault value ++ keptBounds bounds ++ [(2, type)] ++ [(1, name)]⟩ := by
  intro found same
  have lookup : ∀ index, found.group? index =
      (keptDefault value ++ keptBounds bounds ++ [(2, type)] ++ [(1, name)]).lookup index := fun index => by
    rw [← Match.group?_reading, same]
    rfl
  simp only [genericOf, Match.group, lookup]
  cases bounds with
  | none => cases value <;> rfl
  | some b =>
      have order : Text.toLower b.order.keyword = b.order.keyword := by cases b.order <;> decide
      have text : b.text = b.first.text ++ " " ++ Text.toLower b.order.keyword ++ " " ++ b.second.text := by
        rw [order, Bounds.text]
        simp
      rw [Option.map_some, text]
      cases value <;> rfl

theorem scan_declaration (d : GenericDeclaration) {tail : Text} {kept : List (Nat × Text)}
    (wordEnds : Pattern.Stops Text.isWord (tail ++ s)) (h : ∀ before, genericTail.Takes before tail kept s)
    (before : Option Char) :
    ∃ text after, genericPattern.scan before
      ('\n' :: margin ++ (d.name.text ++ (typeMark ++ (d.type.text ++ tail)) ++ s)) =
        ⟨text, kept ++ [(2, d.type.text)] ++ [(1, d.name.text)]⟩ :: genericPattern.scan after s := by
  have margins : ∀ c ∈ '\n' :: margin, Text.isBlank c = true := by decide
  have taken : genericPattern.Takes (lastOf before ('\n' :: margin))
      (d.name.text ++ (typeMark ++ (d.type.text ++ tail)))
      (kept ++ [(2, d.type.text)] ++ [(1, d.name.text)]) s :=
    takes_genericPattern d wordEnds h
  rw [Pattern.scan_of_quiet (genericPattern_skipsBlanks.quiet margins),
    Pattern.scan_of_takes taken (taken.ne_nil rfl)]
  exact ⟨_, _, rfl⟩

theorem scan_default (d : GenericDeclaration) (nonempty : value ≠ [])
    (visible : Pattern.Stops Text.isBlank value) (plain : ∀ c ∈ value, c ≠ ';')
    (stops : Pattern.Stops (· != ';') s) (before : Option Char) :
    ∃ text after, genericPattern.scan before ('\n' :: margin ++ (d.name.text ++ (typeMark ++ (d.type.text ++
      (rangeText d.bounds ++ (defaultMark ++ value)))) ++ s)) =
        ⟨text, keptDefault (some value) ++ keptBounds d.bounds ++ [(2, d.type.text)] ++ [(1, d.name.text)]⟩ ::
          genericPattern.scan after s := by
  have refused : ∀ before, boundsPart.Refuses before ((defaultMark ++ value) ++ s) := fun _ =>
    refuses_boundsPart (g := [' ']) (by decide) (Pattern.stops_cons.mpr (by decide))
      (Pattern.stops_cons.mpr (by decide))
  have wordEnds : Pattern.Stops Text.isWord ((rangeText d.bounds ++ (defaultMark ++ value)) ++ s) := by
    cases d.bounds with
    | none => exact Pattern.stops_cons.mpr (by decide)
    | some b => exact Pattern.stops_cons.mpr (by decide)
  exact scan_declaration d wordEnds (fun _ => takes_genericTail d.bounds refused fun _ =>
    .left (takes_defaultPart nonempty visible plain stops)) before

theorem scan_line (d : GenericDeclaration) (blank : ∀ c ∈ g, Text.isBlank c = true)
    (ends : s = [] ∨ ∃ u, s = ';' :: u) (before : Option Char) :
    ∃ r after, Declares d.generic r ∧
      genericPattern.scan before (d.line ++ (g ++ s)) = r :: genericPattern.scan after s := by
  have next : ∀ accepts : Char → Bool, accepts ';' = false → Pattern.Stops accepts s := by
    intro accepts plain
    rcases ends with rfl | ⟨u, rfl⟩
    · exact Pattern.stops_nil
    · exact Pattern.stops_cons.mpr plain
  have visible := next Text.isBlank (by decide)
  have declares := declares_kept d.name.text d.type.text
  cases default : d.default with
  | none =>
      have refused : ∀ before, boundsPart.Refuses before ([] ++ (g ++ s)) := fun _ =>
        refuses_boundsPart (g := g) (s := s) blank visible (next _ (by decide))
      have wordEnds : Pattern.Stops Text.isWord ((rangeText d.bounds ++ []) ++ (g ++ s)) := by
        cases d.bounds with
        | none =>
            change Pattern.Stops Text.isWord (g ++ s)
            exact Pattern.stops_gap blank (.inr (next _ (by decide)))
        | some b => exact Pattern.stops_cons.mpr (by decide)
      obtain ⟨text, after, found⟩ := scan_declaration d wordEnds (fun _ => takes_genericTail d.bounds refused
        fun _ => .nothing (refuses_defaultPart blank visible (next _ (by decide)))) before
      rw [Pattern.scan_of_quiet (genericPattern_skipsBlanks.quiet blank)] at found
      rw [GenericDeclaration.generic, default]
      refine ⟨_, lastOf after g, declares text d.bounds none, ?_⟩
      simpa [GenericDeclaration.line, GenericDeclaration.text, default, defaultText, keptDefault] using found
  | some v =>
      have plain : ∀ c ∈ v.text ++ g, c ≠ ';' := by
        intro c hc
        rcases List.mem_append.mp hc with hc | hc
        · exact (v.plain c hc).1
        · exact Text.forall_blank (· ≠ ';') (by decide) (blank c hc)
      obtain ⟨text, after, found⟩ := scan_default d (by simp [v.nonempty])
        (Pattern.stops_append v.nonempty (Text.ends_of_trim_eq_self v.trimmed).1) plain (next _ (by decide)) before
      have same := declares text d.bounds (some (v.text ++ g))
      rw [Option.map_some, Text.trim_append_blanks blank, v.trimmed] at same
      rw [GenericDeclaration.generic, default]
      refine ⟨_, after, same, ?_⟩
      simpa [GenericDeclaration.line, GenericDeclaration.text, default, defaultText] using found

theorem scan_items (ds : List GenericDeclaration) (before : Option Char) (s : Text) :
    ∃ rs after, List.Forall₂ (fun d r => Declares d.generic r) ds rs ∧
      genericPattern.scan before (items ds ++ s) = rs ++ genericPattern.scan after s := by
  induction ds generalizing before with
  | nil => exact ⟨[], before, .nil, rfl⟩
  | cons d ds ih =>
      obtain ⟨r, after, declares, found⟩ := scan_line d (g := []) (s := ';' :: (items ds ++ s)) (by simp)
        (.inr ⟨_, rfl⟩) before
      obtain ⟨rs, last, all, others⟩ := ih (some ';')
      refine ⟨r :: rs, last, .cons declares all, ?_⟩
      have separator : genericPattern.Quiet after [';'] (items ds ++ s) :=
        Pattern.quiet_of_closed rfl (by decide)
      have text : items (d :: ds) ++ s = d.line ++ ([] ++ ';' :: (items ds ++ s)) := by
        simp [items]
      have passed := Pattern.scan_of_quiet separator
      rw [List.singleton_append] at passed
      rw [text, found, passed, List.cons_append]
      exact congrArg _ others

/-- Without the parenthesis at its end, a default is found as a shorter one. -/
theorem scan_truncated_default (d : GenericDeclaration) {v : Default} (default : d.default = some v) {x : Text}
    (text : d.text = x ++ [')']) (before : Option Char) :
    ∃ r more other, genericPattern.scan before ('\n' :: margin ++ x) = r :: more ∧ Declares other r ∧
      other ≠ d.generic := by
  obtain ⟨w, c, value⟩ : ∃ w c, v.text = w ++ [c] :=
    ⟨_, _, (List.dropLast_append_getLast v.nonempty).symm⟩
  have split : (d.name.text ++ (typeMark ++ (d.type.text ++ (rangeText d.bounds ++ defaultMark))) ++ w) ++ [c] =
      x ++ [')'] := by
    rw [← text]
    simp [GenericDeclaration.text, default, defaultText, value]
  obtain ⟨rfl, closing⟩ := List.append_inj' split rfl
  obtain rfl : c = ')' := by simpa using closing
  have nonempty : w ≠ [] := by
    rintro rfl
    have balanced := v.balanced
    rw [value] at balanced
    exact absurd balanced (by decide)
  have shown : Pattern.Stops Text.isBlank w := by
    intro c hc
    apply (Text.ends_of_trim_eq_self v.trimmed).1 c
    rwa [value, List.head?_append_of_ne_nil _ nonempty]
  have plain : ∀ c ∈ w, c ≠ ';' := fun c hc => (v.plain c (by rw [value]; exact List.mem_append_left _ hc)).1
  obtain ⟨text, after, found⟩ := scan_default d nonempty shown plain Pattern.stops_nil before
  refine ⟨_, genericPattern.scan after [], _, ?_, declares_kept d.name.text d.type.text text d.bounds (some w),
    fun same => ?_⟩
  · simpa [keptDefault] using found
  · have values := congrArg Generic.default same
    simp only [GenericDeclaration.generic, default, Option.map_some, Option.some.injEq, value] at values
    have shorter := Text.length_trim_le w
    rw [values, List.length_append, List.length_singleton] at shorter
    omega

/-- Without the parenthesis that closes it, a range is not found at all. -/
theorem scan_truncated_bounds (d : GenericDeclaration) {b : Bounds} (default : d.default = none)
    (bounds : d.bounds = some b) {x : Text} (text : d.text = x ++ [')']) (before : Option Char) :
    ∃ r more other, genericPattern.scan before ('\n' :: margin ++ x) = r :: more ∧ Declares other r ∧
      other ≠ d.generic := by
  have split : (d.name.text ++ (typeMark ++ (d.type.text ++ [])) ++ '(' :: b.text) ++ [')'] = x ++ [')'] := by
    rw [← text]
    simp [GenericDeclaration.text, default, bounds, defaultText, rangeText]
  obtain ⟨rfl, -⟩ := List.append_inj' split rfl
  have unclosed : ')' ∉ '(' :: b.text := List.not_mem_cons_of_ne_of_not_mem (by decide) b.unclosed
  have tail : ∀ before, genericTail.Takes before (rangeText none ++ []) _ ('(' :: b.text) := fun _ =>
    takes_genericTail none (fun _ => refuses_boundsPart_of_not_mem unclosed) fun _ =>
      .nothing (refuses_defaultPart (g := []) (by simp) (Pattern.stops_cons.mpr (by decide))
        (Pattern.stops_cons.mpr (by decide)))
  obtain ⟨text, after, found⟩ := scan_declaration d (Pattern.stops_cons.mpr (by decide)) tail before
  refine ⟨_, _, _, found, declares_kept d.name.text d.type.text text none none, fun same => ?_⟩
  have widths := congrArg Generic.width same
  rw [GenericDeclaration.generic, bounds] at widths
  cases widths

/-- Without the parenthesis at its end, a declaration is found as another one. -/
theorem scan_truncated (d : GenericDeclaration) {x : Text} (text : d.text = x ++ [')']) (before : Option Char) :
    ∃ r more other, genericPattern.scan before ('\n' :: margin ++ x) = r :: more ∧ Declares other r ∧
      other ≠ d.generic := by
  cases default : d.default with
  | some v => exact scan_truncated_default d default text before
  | none =>
      cases bounds : d.bounds with
      | some b => exact scan_truncated_bounds d default bounds text before
      | none =>
          -- A declaration that ends with its type ends with a word.
          have split : d.name.text ++ (typeMark ++ d.type.text) = x ++ [')'] := by
            rw [← text]
            simp [GenericDeclaration.text, default, bounds, defaultText, rangeText]
          have last := congrArg List.getLast? split
          rw [← List.append_assoc, List.getLast?_append_of_ne_nil _ d.type.nonempty, List.getLast?_concat] at last
          exact absurd (d.type.word _ (List.mem_of_getLast? last)) (by decide)

theorem eq_of_declares {found : List Match} {rs more : List Reading} {r : Reading}
    {front rest : List Generic} {generic other : Generic}
    (readings : found.map Match.reading = rs ++ r :: more)
    (generics : found.map genericOf = front ++ generic :: rest) (length : rs.length = front.length)
    (declares : Declares other r) : other = generic := by
  obtain ⟨ahead, behind, rfl, same, readings⟩ := List.map_eq_append_iff.mp readings
  obtain ⟨here, behind, rfl, reading, -⟩ := List.map_eq_cons_iff.mp readings
  rw [List.map_append, List.map_cons] at generics
  have parts := List.append_inj generics (by rw [← length, ← same, List.length_map, List.length_map])
  rw [← (List.cons.inj parts.2).1]
  exact (declares here reading).symm

end Pinout.Vhdl
