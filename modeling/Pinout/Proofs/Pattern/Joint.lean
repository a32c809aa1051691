import Pinout.Proofs.Pattern.Names
import Pinout.Proofs.Pattern.Onward
import Pinout.Proofs.Text.Trim

/-! # A blank between two parts of a text

A blank is put in between two parts of a text that do not make up a word together. A pattern that reads
runs of word characters, and reads on over blanks wherever it may leave a word, finds the same with the
blank and without it. What is compared is what is kept under the numbers that are asked for, and the place
behind it up to blanks: the place lies behind the blank, or the blank is still to come in both texts.
-/

namespace Pinout.Pattern

variable {asked : Nat → Bool} {accepts : Char → Bool} {holds : Text → Bool} {p q : Pattern} {next f : Onward}
  {before : Option Char} {c : Char} {s s' t u v x y : Text} {index : Nat}
  {found found' more more' : Option (List (Nat × Text) × Text)}

/-- Two places, one in `u ++ v` and one in the text with the blank, are the same place. -/
inductive SamePlace (u v : Text) : Text → Text → Prop
  /-- The blank is passed. -/
  | past {s s' : Text} (same : Text.trimLeft s = Text.trimLeft s') : SamePlace u v s s'
  /-- The blank is still to come. -/
  | ahead {s s' y : Text} (nonempty : y ≠ []) (suffix : y <:+ u) (plain : Text.trimLeft s = y ++ v)
      (blank : Text.trimLeft s' = y ++ ' ' :: v) : SamePlace u v s s'

/-- The same comes of two ways to go on. -/
inductive Alike (u v : Text) :
    Option (List (Nat × Text) × Text) → Option (List (Nat × Text) × Text) → Prop
  /-- Neither succeeds. -/
  | nothing : Alike u v none none
  /-- Both keep the same and end at the same place. -/
  | found {kept : List (Nat × Text)} {s s' : Text} (place : SamePlace u v s s') : Alike u v (some (kept, s)) (some (kept, s'))

theorem Alike.refl (found : Option (List (Nat × Text) × Text)) : Alike u v found found := by
  cases found with
  | none => exact .nothing
  | some found => exact .found (.past rfl)

theorem Alike.or (first : Alike u v found found') (second : Alike u v more more') :
    Alike u v (found.or more) (found'.or more') := by
  cases first with
  | nothing => exact second
  | found place => exact .found place

theorem Alike.behind (r : Reading) (h : Alike u v found found') : Alike u v (behind asked r found) (behind asked r found') := by
  cases h with
  | nothing => exact .nothing
  | found place => exact .found place

/-- In front of the blank it makes no difference. -/
def InFront (u v : Text) (next : Onward) : Prop :=
  ∀ before y, y ≠ [] → y <:+ u → Alike u v (next before (y ++ v)) (next before (y ++ ' ' :: v))

theorem InFront.refuses_iff (h : InFront u v (p.via asked ended)) (nonempty : y ≠ []) (suffix : y <:+ u) :
    p.Refuses before (y ++ ' ' :: v) ↔ p.Refuses before (y ++ v) := by
  have alike := h before y nonempty suffix
  rw [← @via_ended_eq_none_iff asked, ← @via_ended_eq_none_iff asked]
  generalize p.via asked ended before (y ++ v) = plain at alike ⊢
  generalize p.via asked ended before (y ++ ' ' :: v) = spaced at alike ⊢
  cases alike with
  | nothing => exact iff_of_true rfl rfl
  | found _ => exact iff_of_false nofun nofun

/-- Right in front of the blank it makes no difference. -/
def AtBlank (u v : Text) (next : Onward) : Prop :=
  Alike u v (next (lastOf none u) v) (next (lastOf none u) (' ' :: v))

def PastBlank (u v : Text) (next : Onward) : Prop :=
  Alike u v (next (lastOf none u) v) (next (some ' ') v)

theorem lastOf_suffix (before : Option Char) (nonempty : y ≠ []) (suffix : y <:+ u) : lastOf before y = lastOf none u := by
  obtain ⟨z, rfl⟩ := suffix
  rw [lastOf_append]
  cases y with
  | nil => exact absurd rfl nonempty
  | cons c y => rfl

theorem exists_last (nonempty : y ≠ []) (suffix : y <:+ u) : ∃ z e, y = z ++ [e] ∧ lastOf none u = some e := by
  obtain rfl | ⟨z, e, rfl⟩ := List.eq_nil_or_concat' y
  · exact absurd rfl nonempty
  · refine ⟨z, e, rfl, ?_⟩
    rw [← lastOf_suffix none nonempty suffix, lastOf_append, lastOf_cons, lastOf_nil]

theorem suffix_of_append (suffix : x ++ y <:+ u) : y <:+ u :=
  (List.suffix_append x y).trans suffix

theorem samePlace_suffix (suffix : y <:+ u) : SamePlace u v (y ++ v) (y ++ ' ' :: v) := by
  obtain ⟨g, z, rfl, blank, visible⟩ := exists_run Text.isBlank y
  cases z with
  | nil =>
      refine .past ?_
      rw [List.append_nil, Text.trimLeft_append blank, Text.trimLeft_append blank]
      rfl
  | cons c z =>
      have leads : ∀ s, Text.trimLeft (g ++ (c :: z) ++ s) = c :: z ++ s := by
        intro s
        rw [List.append_assoc, Text.trimLeft_append blank]
        exact Text.trimLeft_eq_self (stops_append (List.cons_ne_nil c z) visible)
      exact .ahead (List.cons_ne_nil c z) (suffix_of_append suffix) (leads v) (leads _)

theorem inFront_ended : InFront u v ended := fun _ _ _ suffix => .found (samePlace_suffix suffix)

theorem atBlank_ended : AtBlank u v ended := .found (.past rfl)

theorem pastBlank_ended : PastBlank u v ended := .refl _

theorem alike_firstOf {before' : Option Char} {t' : Text} {readings : List Reading}
    (h : ∀ a ∈ readings, Alike u v (next (lastOf before a.text) (t.drop a.text.length))
      (next (lastOf before' a.text) (t'.drop a.text.length))) :
    Alike u v (firstOf asked readings next before t) (firstOf asked readings next before' t') := by
  induction readings with
  | nil => exact .nothing
  | cons a readings ih =>
      rw [firstOf_cons, firstOf_cons]
      exact ((h a (by simp)).behind a).or (ih fun b hb => h b (by simp [hb]))

/-- Between a character and a text, `f` passes over a run of the class, if the run holds what is asked for,
and goes on with `next`. A blank belongs to the class and is not asked for. -/
structure Sweeps (accepts : Char → Bool) (holds : Text → Bool) (f next : Onward) : Prop where
  run : ∀ {before x s}, (∀ c ∈ x, accepts c = true) → Stops accepts s →
    f before (x ++ s) = if holds x then next (lastOf before x) s else none
  blank : accepts ' ' = true
  unasked : ∀ x y, holds (x ++ ' ' :: y) = holds (x ++ y)

theorem sweeps_many (halts : Halts accepts next) (blank : accepts ' ' = true) :
    Sweeps accepts (fun _ => true) ((many accepts).via asked next) next where
  run all stops := via_many_run halts all stops
  blank := blank
  unasked _ _ := rfl

theorem sweeps_many_ended (blank : accepts ' ' = true) :
    Sweeps accepts (fun _ => true) ((many accepts).via asked ended) ended where
  run all stops := via_many_of_some all stops rfl
  blank := blank
  unasked _ _ := rfl

theorem sweeps_many_char_many (halts : Halts accepts next) (blank : accepts ' ' = true) (accepted : accepts c = true)
    (visible : c ≠ ' ') :
    Sweeps accepts (fun x => decide (c ∈ x))
      ((many accepts).via asked ((char c).via asked ((many accepts).via asked next))) next where
  run all stops := by simp only [via_many_char_many_run halts accepted all stops, decide_eq_true_eq]
  blank := blank
  unasked x y := by simp [visible]

namespace Sweeps

variable (sweeps : Sweeps accepts holds f next)
include sweeps

private theorem alike_of_all (past : PastBlank u v next) (front : lastOf before y = lastOf none u)
    (all : ∀ c ∈ y, accepts c = true) : Alike u v (f before (y ++ v)) (f before (y ++ ' ' :: v)) := by
  obtain ⟨x, s, rfl, run, stops⟩ := exists_run accepts v
  have plain : f before (y ++ (x ++ s)) = if holds (y ++ x) then next (lastOf before (y ++ x)) s else none := by
    rw [← List.append_assoc]
    exact sweeps.run (List.forall_mem_append.mpr ⟨all, run⟩) stops
  have spaced : f before (y ++ ' ' :: (x ++ s)) =
      if holds (y ++ x) then next (lastOf (some ' ') x) s else none := by
    rw [← List.cons_append, ← List.append_assoc, sweeps.run (List.forall_mem_append.mpr ⟨all, ?_⟩) stops,
      sweeps.unasked, lastOf_append, lastOf_cons]
    exact List.forall_mem_cons.mpr ⟨sweeps.blank, run⟩
  rw [plain, spaced, lastOf_append, front]
  cases holds (y ++ x) with
  | false => exact .nothing
  | true =>
      cases x with
      | nil => exact past
      | cons c x => exact .refl _

theorem inFront (h : InFront u v next) (past : PastBlank u v next) : InFront u v f := by
  intro before y nonempty suffix
  obtain ⟨x, z, rfl, all, stops⟩ := exists_run accepts y
  cases z with
  | nil =>
      rw [List.append_nil] at nonempty suffix ⊢
      exact sweeps.alike_of_all past (lastOf_suffix before nonempty suffix) all
  | cons c z =>
      have rest := h (lastOf before x) (c :: z) (List.cons_ne_nil c z) (suffix_of_append suffix)
      rw [List.append_assoc, List.append_assoc, sweeps.run all (stops_append (List.cons_ne_nil c z) stops),
        sweeps.run all (stops_append (List.cons_ne_nil c z) stops)]
      cases holds x with
      | false => exact .nothing
      | true => exact rest

theorem atBlank (past : PastBlank u v next) : AtBlank u v f :=
  sweeps.alike_of_all (y := []) past rfl (List.forall_mem_nil _)

end Sweeps

theorem inFront_one (h : InFront u v next) (atEnd : ∀ c, accepts c = true → lastOf none u = some c → AtBlank u v next) :
    InFront u v ((one accepts).via asked next) := by
  intro before y nonempty suffix
  obtain ⟨c, y, rfl⟩ := List.exists_cons_of_ne_nil nonempty
  rw [List.cons_append, List.cons_append, via_one, via_one]
  split
  · rename_i accepted
    cases y with
    | nil =>
        have last : lastOf none u = some c := (lastOf_suffix none nonempty suffix).symm
        have blank := atEnd c accepted last
        rwa [AtBlank, last] at blank
    | cons d y => exact h (some c) (d :: y) (List.cons_ne_nil d y) ((List.suffix_cons c _).trans suffix)
  · exact .nothing

theorem pastBlank_one : PastBlank u v ((one accepts).via asked next) := by
  rw [PastBlank]
  cases v with
  | nil => exact .refl _
  | cons c v =>
      rw [via_one, via_one]
      exact .refl _

theorem inFront_boundary (h : InFront u v next) : InFront u v (boundary.via asked next) := by
  intro before y nonempty suffix
  have edge : isEdge before (y ++ v) = isEdge before (y ++ ' ' :: v) := by
    obtain ⟨c, y, rfl⟩ := List.exists_cons_of_ne_nil nonempty
    rfl
  rw [via_boundary, via_boundary, edge]
  split
  · exact h before y nonempty suffix
  · exact .nothing

theorem atBlank_boundary (apart : Apart (lastOf none u) v) (word : (lastOf none u).any Text.isWord = true)
    (h : AtBlank u v next) : AtBlank u v (boundary.via asked next) := by
  have blank : Stops Text.isWord (' ' :: v) := stops_cons.mpr (by decide)
  rw [AtBlank, via_boundary, via_boundary, if_pos (isEdge_of_word word (apart word)), if_pos (isEdge_of_word word blank)]
  exact h

/-- The pattern reads word characters, at least one, and does not look behind. -/
structure Solid (p : Pattern) : Prop where
  reads : p.nullable = false
  blind : p.looksBehind = false
  word : ∀ c, p.mayRead c = true → Text.isWord c = true

namespace Solid

variable (solid : p.Solid)
include solid

theorem stops (h : Stops Text.isWord s) : Stops p.mayRead s := by
  intro c hc
  cases read : p.mayRead c with
  | false => rfl
  | true =>
      have plain := h c hc
      rw [solid.word c read] at plain
      cases plain

/-- A reading that begins in front of the joint ends there at the latest, and the blank does not disturb it. -/
theorem readings_joint (before : Option Char) (apart : Apart (lastOf none u) v) (nonempty : y ≠ []) (suffix : y <:+ u) :
    p.readings before (y ++ v) = p.readings before (y ++ ' ' :: v) ∧
      ∀ a ∈ p.readings before (y ++ v), a.text <+: y := by
  have blank : Text.isWord ' ' = false := by decide
  cases word : (lastOf none u).any Text.isWord with
  | true =>
      have ends := apart word
      refine ⟨readings_cut (by simp [ends.any, blank]) (solid.stops ends) (solid.stops (stops_cons.mpr blank)) rfl y, ?_⟩
      exact fun a ha => front_of_stopped (solid.stops ends) ha
  | false =>
      obtain ⟨z, e, rfl, last⟩ := exists_last nonempty suffix
      have plain : Text.isWord e = false := by simpa [last] using word
      have never : p.mayRead e = false := solid.stops (s := [e]) (stops_cons.mpr plain) e rfl
      simp only [List.append_assoc, List.singleton_append]
      refine ⟨(readings_stop never plain).trans (readings_stop never plain).symm, fun a ha => ?_⟩
      exact (front_of_stopped (stops_cons.mpr never) ha).trans (List.prefix_append z [e])

theorem inFront (apart : Apart (lastOf none u) v) (h : InFront u v next)
    (atEnd : ∀ before, ∀ a ∈ p.readings before (a.text ++ v), a.text <:+ u →
      (lastOf none u).any Text.isWord = true → AtBlank u v next) :
    InFront u v (p.via asked next) := by
  intro before y nonempty suffix
  obtain ⟨same, inside⟩ := solid.readings_joint before apart nonempty suffix
  rw [via, via, ← same]
  refine alike_firstOf fun a ha => ?_
  obtain ⟨z, rfl⟩ := inside a ha
  rw [List.append_assoc, List.append_assoc, List.drop_left, List.drop_left]
  cases z with
  | cons c z => exact h _ (c :: z) (List.cons_ne_nil c z) (suffix_of_append suffix)
  | nil =>
      rw [List.append_nil] at ha nonempty suffix
      have word : ∀ c ∈ a.text, Text.isWord c = true := fun c hc => solid.word c (mayRead_of_mem ha c hc)
      have last : lastOf before a.text = lastOf none u := lastOf_suffix before nonempty suffix
      rw [last]
      exact atEnd before a ha suffix (last ▸ any_lastOf nonempty word)

theorem pastBlank : PastBlank u v (p.via asked next) := by
  rw [PastBlank, via, via, readings_anywhere solid.blind (lastOf none u) (some ' ') v]
  refine alike_firstOf fun a ha => ?_
  obtain ⟨c, x, text⟩ := List.exists_cons_of_ne_nil (ne_nil_of_mem solid.reads ha)
  rw [text]
  exact .refl _

theorem refuses (ends : Stops Text.isWord s) : p.Refuses before s :=
  refuses_iff.mpr fun _ ha => ne_nil_of_mem solid.reads ha
    (List.prefix_nil.mp (front_of_stopped (x := []) (solid.stops ends) ha))

theorem halts : Halts Text.isBlank (p.via asked next) := fun _ _ _ blank =>
  via_of_refuses (solid.refuses (stops_cons.mpr (Text.isWord_of_isBlank blank)))

end Solid

theorem solid_word : word.Solid where
  reads := rfl
  blind := rfl
  word _ read := by simpa [word, atLeastOne, mayRead] using read

theorem Solid.orElse (first : p.Solid) (second : q.Solid) : (p <|> q).Solid where
  reads := Bool.or_eq_false_iff.mpr ⟨first.reads, second.reads⟩
  blind := Bool.or_eq_false_iff.mpr ⟨first.blind, second.blind⟩
  word c read := (Bool.or_eq_true_iff.mp read).elim (first.word c) (second.word c)

theorem Solid.group (h : p.Solid) (index : Nat) : (group index p).Solid where
  reads := h.reads
  blind := h.blind
  word := h.word

theorem solid_eachOf {tests : List (Char → Bool)} (word : ∀ test ∈ tests, ∀ c, test c = true → Text.isWord c = true)
    (nonempty : tests ≠ []) : (eachOf tests).Solid := by
  induction tests with
  | nil => exact absurd rfl nonempty
  | cons test tests ih =>
      have first := word test List.mem_cons_self
      cases tests with
      | nil => exact ⟨rfl, rfl, fun c read => first c (by simpa [eachOf, mayRead] using read)⟩
      | cons next tests =>
          have rest := ih (fun t ht => word t (List.mem_cons_of_mem test ht)) (List.cons_ne_nil next tests)
          exact ⟨rfl, rest.blind, fun c read => (Bool.or_eq_true_iff.mp read).elim (first c) (rest.word c)⟩

theorem solid_exactly {k : Text} (word : ∀ c ∈ k, Text.isWord c = true) (nonempty : k ≠ []) : (exactly k).Solid := by
  rw [exactly_eq_eachOf]
  refine solid_eachOf (List.forall_mem_map.mpr fun c hc d same => ?_) (by simpa using nonempty)
  rw [beq_iff_eq.mp same]
  exact word c hc

theorem solid_keyword {k : Text} (key : ∀ letter ∈ k, isKeyLetter letter = true) (nonempty : k ≠ []) :
    (keyword k).Solid := by
  rw [keyword_eq_eachOf]
  exact solid_eachOf (List.forall_mem_map.mpr fun letter hl _ => isWord_of_isVariant (key letter hl))
    (by simpa using nonempty)

/-- The blank makes no difference in front of it or behind it, and no blank is read. -/
structure Tolerates (u v : Text) (next : Onward) : Prop where
  inFront : InFront u v next
  pastBlank : PastBlank u v next
  halts : Halts Text.isBlank next

namespace Tolerates

theorem solid (solid : p.Solid) (apart : Apart (lastOf none u) v) (h : InFront u v next)
    (atEnd : ∀ before, ∀ a ∈ p.readings before (a.text ++ v), a.text <:+ u →
      (lastOf none u).any Text.isWord = true → AtBlank u v next) :
    Tolerates u v (p.via asked next) where
  inFront := solid.inFront apart h atEnd
  pastBlank := solid.pastBlank
  halts := solid.halts

theorem char (visible : Text.isBlank c = false) (h : InFront u v next)
    (atEnd : lastOf none u = some c → AtBlank u v next) : Tolerates u v ((char c).via asked next) where
  inFront := inFront_one h fun _ same last => atEnd (beq_iff_eq.mp same ▸ last)
  pastBlank := pastBlank_one
  halts := halts_char visible

theorem or (first : Tolerates u v next) (second : Tolerates u v f) :
    Tolerates u v fun before t => (next before t).or (f before t) where
  inFront before y nonempty suffix :=
    (first.inFront before y nonempty suffix).or (second.inFront before y nonempty suffix)
  pastBlank := first.pastBlank.or second.pastBlank
  halts before c s blank := by
    dsimp only
    rw [first.halts before c s blank, second.halts before c s blank, Option.or_none]

theorem optional (first : Tolerates u v (p.via asked next)) (second : Tolerates u v next) :
    Tolerates u v ((optional p).via asked next) := by
  have either : (Pattern.optional p).via asked next = fun before t => (p.via asked next before t).or (next before t) := by
    funext before t
    exact via_optional
  rw [either]
  exact first.or second

theorem sweeps (h : Tolerates u v next) : Sweeps Text.isBlank (fun _ => true) (blanks.via asked next) next :=
  sweeps_many h.halts (by decide)

theorem keyword (h : Tolerates u v next) (apart : Apart (lastOf none u) v) (solid : p.Solid) :
    Tolerates u v (p.via asked (boundary.via asked (blanks.via asked next))) :=
  .solid solid apart (inFront_boundary (h.sweeps.inFront h.inFront h.pastBlank)) fun _ _ _ _ word =>
    atBlank_boundary apart word (h.sweeps.atBlank h.pastBlank)

theorem inFront_gap (h : Tolerates u v next) : InFront u v (gap.via asked next) := by
  rw [gap, atLeastOne, via_append]
  exact inFront_one (h.sweeps.inFront h.inFront h.pastBlank) fun _ _ _ => h.sweeps.atBlank h.pastBlank

/-- The blank makes a gap where there was none, so that one must not be able to go on behind it. -/
theorem atBlank_gap (h : Tolerates u v next) (dead : Stops Text.isBlank v → next (some ' ') v = none) :
    AtBlank u v (gap.via asked next) := by
  have sweeps : Sweeps Text.isBlank _ ((many Text.isBlank).via asked next) next := h.sweeps
  rw [AtBlank, gap, atLeastOne, via_append]
  obtain ⟨x, s, rfl, blank, visible⟩ := exists_run Text.isBlank v
  rw [via_one, if_pos (by decide), sweeps.run blank visible]
  cases x with
  | nil =>
      have refused : (one Text.isBlank).Refuses (lastOf none u) s := refuses_of_stops rfl visible
      rw [List.nil_append] at dead ⊢
      rw [via_of_refuses refused, lastOf_nil, if_pos rfl, dead visible]
      exact .nothing
  | cons c x =>
      rw [List.cons_append, via_one, if_pos (blank c (by simp)), sweeps.run (fun d hd => blank d (by simp [hd])) visible]
      exact .refl _

theorem repeated (reads : p.nullable = false) (h : ∀ rounds, Tolerates u v (viaTimes asked p next rounds)) :
    Tolerates u v ((repeated p).via asked next) where
  inFront before y nonempty suffix := by
    have long : (y ++ v).length ≤ (y ++ ' ' :: v).length := by simp
    rw [via_repeated reads long, via_repeated reads (Nat.le_refl _)]
    exact (h _).inFront before y nonempty suffix
  pastBlank := by
    rw [PastBlank, via_repeated reads (Nat.le_refl _), via_repeated reads (Nat.le_refl _)]
    exact (h _).pastBlank
  halts before c s blank := by
    rw [via_repeated reads (Nat.le_refl _)]
    exact (h _).halts before c s blank

end Tolerates

theorem viaTimes_of_refuses (refuses : p.Refuses before t) (none : next before t = none) (rounds : Nat) :
    viaTimes asked p next rounds before t = Option.none := by
  cases rounds with
  | zero => exact none
  | succ rounds => rw [viaTimes_succ, via_of_refuses refuses, none, Option.none_or]

/-- Behind the end of a reading, a scan goes on as if there was a blank. -/
theorem scan_of_apart (begins : p.BeginsWord) (skips : p.SkipsBlanks) (apart : Apart before s) :
    p.scan before s = p.scan none (Text.trimLeft s) := by
  have anew : p.scan before s = p.scan none s := by
    cases word : before.any Text.isWord with
    | false => exact scan_behind skips.reads word s
    | true =>
        have refuses : ∀ before, p.Refuses before s := fun before => begins before s (.inr (apart word))
        cases s with
        | nil => rw [scan_nil skips.reads, scan_nil skips.reads]
        | cons c s =>
            rw [scan_of_refuses (refuses before), scan_of_refuses (refuses none)]
  obtain ⟨g, t, rfl, blank, visible⟩ := exists_run Text.isBlank s
  have outside : (lastOf none g).any Text.isWord = Option.any Text.isWord none :=
    any_lastOf_eq_false rfl fun c hc => Text.isWord_of_isBlank (blank c hc)
  rw [anew, scan_of_quiet (skips.quiet blank), Text.trimLeft_append blank, Text.trimLeft_eq_self visible,
    scan_behind skips.reads outside]

theorem via_ended_cases (asked : Nat → Bool) (p : Pattern) (before : Option Char) (t : Text) :
    (p.Refuses before t ∧ p.via asked ended before t = none) ∨
      ∃ r s, t = r.text ++ s ∧ p.Takes before r.text r.kept s ∧ p.via asked ended before t = some (told asked r, s) := by
  cases readings : p.readings before t with
  | nil => exact .inl ⟨readings, via_of_refuses readings⟩
  | cons r rest =>
      obtain ⟨s, rfl⟩ := front_of_mem (readings ▸ List.mem_cons_self)
      refine .inr ⟨r, s, rfl, by rw [Takes, readings]; rfl, ?_⟩
      rw [via_ended, readings, List.head?_cons, Option.map_some, List.drop_left]

/-- A scan of the stretch `y` in front of the blank finds the same as without it. -/
private def ScansAlike (asked : Nat → Bool) (p : Pattern) (v y : Text) : Prop :=
  ∀ before, (y = [] → Apart before v) →
    (p.scan before (y ++ v)).map (told asked) = (p.scan before (y ++ ' ' :: v)).map (told asked)

section Scan

variable (begins : p.BeginsWord) (skips : p.SkipsBlanks) (ends : p.TakesApart)
include begins skips

private theorem scansAlike_nil : ScansAlike asked p v [] := by
  intro before front
  have passed : Apart before (' ' :: v) := fun _ => stops_cons.mpr (by decide)
  rw [List.nil_append, List.nil_append, scan_of_apart begins skips (front rfl), scan_of_apart begins skips passed]
  rfl

include ends

private theorem told_scan_cons {r : Reading} (takes : p.Takes before r.text r.kept s) :
    (p.scan before (r.text ++ s)).map (told asked) =
      told asked r :: (p.scan none (Text.trimLeft s)).map (told asked) := by
  rw [scan_of_takes takes (takes.ne_nil skips.reads), List.map_cons, scan_of_apart begins skips (ends _ _ _ _ takes)]

omit begins skips ends in
private theorem scansAlike_place (shorter : ∀ z, z.length < y.length → z <:+ u → ScansAlike asked p v z)
    (place : SamePlace u v s s') (short : s.length < (y ++ v).length) :
    (p.scan none (Text.trimLeft s)).map (told asked) = (p.scan none (Text.trimLeft s')).map (told asked) := by
  cases place with
  | past same => rw [same]
  | @ahead z nonempty suffix plain blank =>
      have trimmed := (List.dropWhile_suffix Text.isBlank (l := s)).length_le
      change (Text.trimLeft s).length ≤ _ at trimmed
      rw [plain, List.length_append] at trimmed
      rw [List.length_append] at short
      rw [plain, blank]
      exact shorter z (by omega) suffix none fun nothing => absurd nothing nonempty

private theorem scansAlike_cons (h : InFront u v (p.via asked ended)) (apart : Apart (lastOf none u) v)
    (suffix : c :: y <:+ u) (shorter : ∀ z, z.length < (c :: y).length → z <:+ u → ScansAlike asked p v z) :
    ScansAlike asked p v (c :: y) := by
  intro before _
  have alike := h before (c :: y) (List.cons_ne_nil c y) suffix
  rcases via_ended_cases asked p before (c :: y ++ v) with ⟨refuses, none⟩ | ⟨r, s, split, takes, some⟩ <;>
    rcases via_ended_cases asked p before (c :: y ++ ' ' :: v) with
      ⟨refuses', none'⟩ | ⟨r', s', split', takes', some'⟩
  · rw [List.cons_append] at refuses refuses' ⊢
    rw [List.cons_append, scan_of_refuses refuses, scan_of_refuses refuses']
    refine shorter y (Nat.lt_succ_self _) ((List.suffix_cons c y).trans suffix) _ ?_
    rintro rfl
    rwa [← lastOf_suffix before (List.cons_ne_nil c []) suffix] at apart
  -- The blank does not decide whether something is read.
  · rw [none, some'] at alike
    cases alike
  · rw [some, none'] at alike
    cases alike
  · have short : s.length < (c :: y ++ v).length := by
      have moved := List.length_pos_of_ne_nil (takes.ne_nil skips.reads)
      rw [split, List.length_append]
      omega
    rw [some, some'] at alike
    rw [split, split', told_scan_cons begins skips ends takes, told_scan_cons begins skips ends takes']
    generalize told asked r' = kept at alike ⊢
    cases alike with
    | found place => rw [scansAlike_place shorter place short]

/-- If the blank makes no difference to what is read at any place in front of it, a scan finds the same with
the blank and without it. The induction is on what stands in front of the blank. -/
theorem told_scan_blank (apart : Apart (lastOf none u) v) (h : InFront u v (p.via asked ended)) :
    (p.scan none (u ++ v)).map (told asked) = (p.scan none (u ++ ' ' :: v)).map (told asked) := by
  have alike : ∀ y, y <:+ u → ScansAlike asked p v y := by
    intro y
    induction y using Text.shorter_induction with
    | step y shorter =>
        intro suffix
        cases y with
        | nil => exact scansAlike_nil begins skips
        | cons c y => exact scansAlike_cons begins skips ends h apart suffix shorter
  refine alike u (List.suffix_refl u) none fun nothing => ?_
  rwa [nothing] at apart

end Scan

end Pinout.Pattern
