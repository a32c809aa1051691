import Pinout.Proofs.Vhdl.Declarations
import Pinout.Proofs.Vhdl.GenericOpening
import Pinout.Proofs.Vhdl.MaskedHeader
import Pinout.Proofs.Vhdl.PortPlaces

/-! # Blanks in front of a closing semicolon

Blanks are put in between a closing parenthesis and the semicolon behind it. Ports and end clauses never go on across
the parenthesis, so both are found as before. A generic clause ends only where the two stand next to each other: if the
blanks are put in at its end, it runs on to the next place where they do.
-/

namespace Pinout.Vhdl

variable {a b g h y z : Text} {before : Option Char}

/-- A text with a closing parenthesis and a semicolon, and what stands between the two. -/
def closing (a g b : Text) : Text :=
  a ++ ')' :: (g ++ ';' :: b)

/-- A source without comments and string literals. -/
structure Unmarked (t : Text) : Prop where
  commentFree : ¬ ['-', '-'] <:+: t
  literalFree : stringPattern.search? t = none

instance (t : Text) : Decidable (Unmarked t) :=
  decidable_of_iff (¬ ['-', '-'] <:+: t ∧ stringPattern.search? t = none)
    ⟨fun ⟨commentFree, literalFree⟩ => ⟨commentFree, literalFree⟩, fun h => ⟨h.commentFree, h.literalFree⟩⟩

theorem Unmarked.part {t : Text} (unmarked : Unmarked t) {s : Text} (part : s <:+: t) : Unmarked s where
  commentFree dashes := unmarked.commentFree (dashes.trans part)
  literalFree := (search?_stringPattern_eq_none_iff s).mpr fun x contents quoted =>
    (search?_stringPattern_eq_none_iff t).mp unmarked.literalFree x contents (quoted.trans part)

theorem Unmarked.stripComments_eq {t : Text} (unmarked : Unmarked t) : stripComments t = t :=
  stripComments_eq_self unmarked.commentFree

theorem Unmarked.maskStrings_eq {t : Text} (unmarked : Unmarked t) : maskStrings t = t :=
  Pattern.replaceAll_of_quiet _ (Pattern.quiet_of_find?_eq_none unmarked.literalFree)

theorem closing_eq_append (a g b : Text) : closing a g b = (a ++ [')']) ++ (g ++ ';' :: b) := by
  simp [closing]

theorem Unmarked.closing (unmarked : Unmarked (closing a [] b)) (blank : ∀ c ∈ g, Text.isBlank c = true) :
    Unmarked (Vhdl.closing a g b) := by
  have absent : ∀ {d}, Text.isBlank d = false → d ∉ g := Text.not_mem_of_blank blank
  refine ⟨fun dashes => unmarked.commentFree ?_, ?_⟩
  · rw [closing_eq_append, Text.pair_infix_append] at dashes ⊢
    rcases dashes with front | back | ⟨last, -⟩
    · exact .inl front
    · refine .inr (.inl ?_)
      rcases Text.pair_infix_append.mp back with inside | behind | ⟨last, -⟩
      · exact absurd (inside.subset List.mem_cons_self) (absent (by decide))
      · exact behind
      · exact absurd (List.mem_of_getLast? last) (absent (by decide))
    · rw [List.getLast?_concat] at last
      cases last
  · refine (search?_stringPattern_eq_none_iff _).mpr fun x contents quoted => ?_
    rw [closing_eq_append] at quoted
    obtain ⟨y, contents', quoted'⟩ := exists_literal_infix (absent (by decide)) contents quoted
    refine (search?_stringPattern_eq_none_iff _).mp unmarked.literalFree y contents' ?_
    rwa [closing_eq_append]

theorem quiet_joint {p : Pattern} (skips : p.SkipsBlanks) (closed : p.opens ')' = false ∧ p.opens ';' = false)
    (blank : ∀ c ∈ g, Text.isBlank c = true) (s : Text) : p.Quiet before (')' :: (g ++ [';'])) s := by
  refine Pattern.quiet_of_closed skips.reads fun c hc => ?_
  simp only [List.mem_cons, List.mem_append, List.not_mem_nil, or_false] at hc
  rcases hc with rfl | hc | rfl
  · exact closed.1
  · exact skips.closed c (blank c hc)
  · exact closed.2

theorem lastOf_joint (a g : Text) : lastOf before (a ++ ')' :: (g ++ [';'])) = some ';' := by
  rw [← List.cons_append, ← List.append_assoc, lastOf_append]
  rfl

theorem closing_eq (a g b : Text) : closing a g b = (a ++ ')' :: (g ++ [';'])) ++ b := by
  simp [closing]

/-- A pattern that never reads the parenthesis finds nothing up to the semicolon if it finds nothing in front of the
parenthesis. -/
theorem quiet_closing {p : Pattern} (skips : p.SkipsBlanks) (closed : p.opens ')' = false ∧ p.opens ';' = false)
    (never : p.mayRead ')' = false) (quiet : p.Quiet before a []) (blank : ∀ c ∈ g, Text.isBlank c = true) (s : Text) :
    p.Quiet before (a ++ ')' :: (g ++ [';'])) s := by
  refine Pattern.Quiet.append ?_ (quiet_joint skips closed blank s)
  exact (Pattern.quiet_stop (t := []) never (by decide)).mpr quiet

theorem entityPattern_skipsBlanks : entityPattern.SkipsBlanks where
  reads := rfl
  closed _ := Text.forall_blank (entityPattern.opens · = false) (by decide +kernel)

/-- The header goes on across the joint, whatever blanks stand there. -/
def CrossesJoint (a b : Text) : Prop :=
  ∃ rest, ∀ g, (∀ c ∈ g, Text.isBlank c = true) → headerOf (closing a g b) = closing (headerOf a) g rest

/-- The header does not hold the joint and is the same whatever blanks stand there. -/
def AvoidsJoint (a b : Text) : Prop :=
  ∃ h, ¬ headerOf a ++ [')'] <+: h ∧ ∀ g, (∀ c ∈ g, Text.isBlank c = true) → headerOf (closing a g b) = h

section Header

variable (unmarked : Unmarked (closing a [] b))
include unmarked

/-- Where an entity opens in front of the joint, its header ends there or goes on across the joint. -/
theorem headerOf_closing_of_opening {front opening tail : Text} {kept : List (Nat × Text)}
    (there : OpeningAt a front opening tail kept) : CrossesJoint a b ∨ AvoidsJoint a b := by
  obtain ⟨x, y, split, quiet, ends⟩ := entityEndPattern.exists_quiet rfl (lastOf none (front ++ opening)) tail
  have plain : maskStrings a = a := (unmarked.part (List.prefix_append a _).isInfix).maskStrings_eq
  have header := there.headerOf_eq_of_first plain split quiet ends
  have around : ∀ g, OpeningAt (closing a g b) front opening (closing tail g b) kept := fun g =>
    there.behind (by decide +kernel) (by decide) (g ++ ';' :: b)
  rcases ends with rfl | ends
  · rw [List.append_nil] at split
    obtain ⟨u, v, rfl, quietBehind, endsBehind⟩ := entityEndPattern.exists_quiet rfl (some ';') b
    -- No end clause in front of the joint: it is looked for behind the semicolon, where the blanks are past.
    refine .inl ⟨u, fun g blank => ?_⟩
    have passed : entityEndPattern.Quiet (lastOf none (front ++ opening)) (tail ++ ')' :: (g ++ [';'])) (u ++ v) :=
      quiet_closing entityEndPattern_skipsBlanks (by decide) (by decide) (split ▸ quiet) blank (u ++ v)
    rw [header, ← split, (around g).headerOf_eq_of_first (unmarked.closing blank).maskStrings_eq
      (x := closing tail g u) (y := v)]
    · simp only [closing, List.append_assoc]
    · simp only [closing, List.append_assoc, List.cons_append]
    · rw [closing_eq]
      refine passed.append ?_
      rwa [lastOf_joint]
    · rwa [closing_eq, lastOf_append, lastOf_joint]
  · refine .inr ⟨opening ++ x, ?_, fun g blank => ?_⟩
    · rw [header]
      intro longer
      have longer := longer.length_le
      simp only [List.length_append, List.length_singleton] at longer
      omega
    · refine (around g).headerOf_eq_of_first (unmarked.closing blank).maskStrings_eq (y := closing y g b) ?_ ?_ (.inr ?_)
      · rw [split, closing, closing, List.append_assoc]
      · exact (Pattern.quiet_stop (by decide) (by decide)).mpr quiet
      · rwa [closing, Pattern.Refuses, Pattern.readings_stop (by decide) (by decide)]

omit unmarked in
theorem not_prefix_of_takes {opening x y : Text} {kept : List (Nat × Text)} (silent : entityPattern.Quiet none a [])
    (takes : entityPattern.Takes before opening kept (x ++ y)) : ¬ a ++ [')'] <+: opening ++ x := by
  rintro ⟨w, split⟩
  -- An opening holds no parenthesis, so that it would stand in front of the joint, where none is found.
  have absent : ')' ∉ opening := Pattern.not_mem_of_never (by decide +kernel) takes.mem
  rw [List.append_assoc] at split
  obtain ⟨z, rfl, rfl⟩ := Text.append_cons_of_not_mem absent split
  rw [List.append_assoc, List.cons_append, Pattern.takes_stop (by decide +kernel) (by decide)] at takes
  have outside : before.any Text.isWord = (none : Option Char).any Text.isWord := by
    rw [Option.any_none]
    by_contra inside
    exact takes.not_refuses (entityPattern_ledBy.begins _ _ (.inl (by simpa using inside)))
  obtain ⟨c, opening, rfl⟩ := List.exists_cons_of_ne_nil (takes.ne_nil rfl)
  have refused : entityPattern.Refuses none (c :: (opening ++ z ++ [])) := silent.1
  rw [List.append_nil] at refused
  refine takes.not_refuses ?_
  rwa [Pattern.Refuses, Pattern.readings_behind outside]

theorem headerOf_closing_of_none (missing : entityPattern.search? a = none) : CrossesJoint a b ∨ AvoidsJoint a b := by
  have silent : entityPattern.Quiet none a [] := Pattern.quiet_of_find?_eq_none missing
  have header : headerOf a = a := by rw [headerOf, missing]
  have passed : ∀ g, (∀ c ∈ g, Text.isBlank c = true) → ∀ s,
      entityPattern.Quiet none (a ++ ')' :: (g ++ [';'])) s := fun g blank s =>
    quiet_closing entityPattern_skipsBlanks (by decide +kernel) (by decide +kernel) silent blank s
  obtain ⟨f, r, rfl, quiet, ends⟩ := entityPattern.exists_quiet rfl (some ';') b
  rcases ends with rfl | ends
  · refine .inl ⟨f, fun g blank => ?_⟩
    -- Without any entity the header is the whole text, and the joint is in it.
    have whole : entityPattern.Quiet none (closing a g f) [] := by
      rw [closing_eq]
      refine (passed g blank _).append ?_
      rwa [lastOf_joint]
    have nowhere : entityPattern.search? (closing a g f) = none := Pattern.find?_eq_none_of_quiet rfl whole 0
    rw [List.append_nil, header, headerOf, nowhere]
  · obtain ⟨opening, kept, rest, rfl, takes⟩ := Pattern.exists_takes ends
    obtain ⟨x, y, rfl, quietBehind, endsBehind⟩ :=
      entityEndPattern.exists_quiet rfl (lastOf (some ';') (f ++ opening)) rest
    refine .inr ⟨opening ++ x, by rw [header]; exact not_prefix_of_takes silent takes, fun g blank => ?_⟩
    have last : lastOf none (closing a g f ++ opening) = lastOf (some ';') (f ++ opening) := by
      rw [closing_eq, List.append_assoc, lastOf_append, lastOf_joint]
    have there : OpeningAt (closing a g (f ++ (opening ++ (x ++ y)))) (closing a g f) opening (x ++ y) kept := by
      refine ⟨by simp only [closing, List.append_assoc, List.cons_append], ?_, ?_⟩
      · rw [closing_eq]
        refine (passed g blank _).append ?_
        rwa [lastOf_joint]
      · rwa [closing_eq, lastOf_append, lastOf_joint]
    refine there.headerOf_eq_of_first (unmarked.closing blank).maskStrings_eq rfl ?_ ?_
    · rwa [last]
    · rwa [last]

theorem headerOf_closing : CrossesJoint a b ∨ AvoidsJoint a b := by
  cases search : entityPattern.search? a with
  | none => exact headerOf_closing_of_none unmarked search
  | some found =>
      obtain ⟨front, opening, tail, kept, there⟩ := exists_openingAt (Option.isSome_iff_exists.mpr ⟨found, search⟩)
      exact headerOf_closing_of_opening unmarked there

end Header

section Declarations

variable (blank : ∀ c ∈ g, Text.isBlank c = true)
include blank

theorem portsOf_closing (y z : Text) : portsOf (closing y g z) = portsOf (closing y [] z) := by
  have joint : ∀ g, (∀ c ∈ g, Text.isBlank c = true) → portPattern.scan none (closing y g z) =
      portPattern.scan none (y ++ [')']) ++ portPattern.scan (some ';') z := fun g blank => by
    have joint : portPattern.Quiet none (')' :: (g ++ [';'])) z :=
      quiet_joint portPattern_skipsBlanks (by decide +kernel) blank z
    have quiet : portPattern.Quiet (some ')') (g ++ [';']) z := joint.2
    have last : lastOf (some ')') (g ++ [';']) = some ';' := by
      rw [lastOf_append]
      rfl
    rw [closing, scan_portPattern_closing, show g ++ ';' :: z = (g ++ [';']) ++ z by simp, Pattern.scan_of_quiet quiet,
      last]
  rw [portsOf_eq_scan, portsOf_eq_scan, joint g blank, joint [] (List.forall_mem_nil _)]

theorem genericClause?_closing_of_none (missing : genericFront.search? y = none) (z : Text) :
    genericClause? (closing y g z) = genericClause? (closing y [] z) := by
  have behind : ∀ g, (∀ c ∈ g, Text.isBlank c = true) →
      genericClause? (closing y g z) = clauseFrom (some ';') z := fun g blank => by
    have quiet : genericFront.Quiet none (y ++ ')' :: (g ++ [';'])) z :=
      quiet_closing genericFront_skipsBlanks (by decide) (by decide) (Pattern.quiet_of_find?_eq_none missing) blank z
    rw [genericClause?_eq_clauseFrom, closing_eq, clauseFrom_of_quiet quiet, lastOf_joint]
  rw [behind g blank, behind [] (List.forall_mem_nil _)]

omit blank in
theorem clauseAt_closing {front opening rest : Text} (there : ClauseAt y front opening rest) (g z : Text) :
    ClauseAt (closing y g z) front opening (closing rest g z) :=
  there.append (')' :: (g ++ ';' :: z))

omit blank in
theorem genericClause?_closing_of_open {front opening clause : Text} (there : ClauseAt y front opening clause)
    (endless : ¬ clauseEnd <:+: clause) (z : Text) : genericClause? (closing y [] z) = some clause :=
  (clauseAt_closing there [] z).genericClause?_eq_some (s := z) rfl fun ends => by
    rcases Text.pair_infix_append.mp ends with inside | inside | ⟨-, next⟩
    · exact endless inside
    · simpa using inside.length_le
    · simp at next

theorem not_clauseEnd_infix_closing (more : g ≠ []) (front : ¬ clauseEnd <:+: y) (behind : ¬ clauseEnd <:+: z) :
    ¬ clauseEnd <:+: closing y g z := by
  obtain ⟨c, g, rfl⟩ := List.exists_cons_of_ne_nil more
  have passes : ¬ clauseEnd <:+: (c :: g) ++ ';' :: z := fun ends => by
    rcases Text.pair_infix_append.mp ends with inside | inside | ⟨last, -⟩
    · exact absurd (blank _ (inside.subset List.mem_cons_self)) (by decide)
    · rcases Text.pair_infix_cons.mp inside with ⟨first, -⟩ | inside
      · exact absurd first (by decide)
      · exact behind inside
    · exact absurd (blank _ (List.mem_of_getLast? last)) (by decide)
  intro ends
  rcases Text.pair_infix_append.mp ends with inside | inside | ⟨-, next⟩
  · exact front inside
  · rcases Text.pair_infix_cons.mp inside with ⟨-, next⟩ | inside
    · obtain rfl : c = ';' := by simpa using next
      exact absurd (blank _ List.mem_cons_self) (by decide)
    · exact passes inside
  · simp at next

end Declarations

/-- A generic clause opens in the text and does not end in it. -/
def LeavesOpen (t : Text) : Prop :=
  ∃ found ∈ genericFront.search? t, ¬ clauseEnd <:+: t.drop found.stop.position

instance (t : Text) : Decidable (LeavesOpen t) :=
  inferInstanceAs (Decidable (∃ found ∈ _, _))

/-- The parenthesis and the semicolon between the two parts of a source are the end of its generic clause. -/
def EndsClause (a b : Text) : Prop :=
  header a ++ clauseEnd <+: header (closing a [] b) ∧ LeavesOpen (header a)

instance (a b : Text) : Decidable (EndsClause a b) :=
  inferInstanceAs (Decidable (_ ∧ _))

/-- What becomes of a clause that goes on to the joint: it is read on to the next place where a parenthesis and a
semicolon stand together, and not at all if there is none. -/
structure RunsOn (a g b clause rest : Text) : Prop where
  header_eq : header (closing a [] b) = header a ++ (clauseEnd ++ rest)
  clause_suffix : clause <:+ header a
  generics_eq : generics (closing a [] b) = genericsIn clause
  endless : ¬ clauseEnd <:+: rest → generics (closing a g b) = []
  ends : ∀ more s, rest = more ++ (clauseEnd ++ s) → ¬ clauseEnd <:+: more ++ [')'] →
    generics (closing a g b) = genericsIn (closing clause g more)

section Sources

variable (unmarked : Unmarked (closing a [] b)) (blank : ∀ c ∈ g, Text.isBlank c = true)
include unmarked

theorem header_closing (blank : ∀ c ∈ g, Text.isBlank c = true) : header (closing a g b) = headerOf (closing a g b) := by
  rw [header, (unmarked.closing blank).stripComments_eq]

theorem header_front : header a = headerOf a := by
  rw [header, (unmarked.part (List.prefix_append a _).isInfix).stripComments_eq]

include blank

theorem declarations_of_avoidsJoint (avoids : AvoidsJoint a b) :
    header (closing a g b) = header (closing a [] b) ∧ ¬ EndsClause a b := by
  obtain ⟨h, outside, same⟩ := avoids
  have joined : header (closing a [] b) = h := by
    rw [header_closing unmarked (List.forall_mem_nil _), same [] (List.forall_mem_nil _)]
  refine ⟨?_, fun ends => outside ?_⟩
  · rw [header_closing unmarked blank, same g blank, joined]
  · have front := ends.1
    rw [header_front unmarked, joined] at front
    exact .trans ⟨[';'], by simp [clauseEnd]⟩ front

section

omit unmarked

variable {rest : Text} (joined : header (closing a [] b) = closing (header a) [] rest)
  (spaced : header (closing a g b) = closing (header a) g rest)
include joined spaced

theorem runsOn_of_open {front opening clause : Text} (there : ClauseAt (header a) front opening clause)
    (endless : ¬ clauseEnd <:+: clause) (more : g ≠ []) : RunsOn a g b clause rest where
  header_eq := by
    rw [joined]
    simp [closing, clauseEnd]
  clause_suffix := ⟨front ++ opening, by rw [there.split, List.append_assoc]⟩
  generics_eq := by
    rw [generics, joined, genericsOf_eq, genericClause?_closing_of_open there endless]
    rfl
  endless never := by
    have missing : genericClause? (closing (header a) g rest) = none :=
      (clauseAt_closing there g rest).genericClause?_eq_none (not_clauseEnd_infix_closing blank more endless never)
    rw [generics, spaced, genericsOf_eq, missing]
    rfl
  ends further s split first := by
    have found : genericClause? (closing (header a) g rest) = some (closing clause g further) :=
      (clauseAt_closing there g rest).genericClause?_eq_some (s := s) (by simp [closing, split]) fun ends => by
        refine not_clauseEnd_infix_closing blank more endless first ?_
        simpa [closing] using ends
    rw [generics, spaced, genericsOf_eq, found]
    rfl

/-- In a header that goes on across the joint, only a clause that is open there depends on it. -/
theorem generics_of_crossesJoint : (¬ LeavesOpen (header a) → generics (closing a g b) = generics (closing a [] b)) ∧
    (LeavesOpen (header a) → g ≠ [] → ∃ clause, RunsOn a g b clause rest) := by
  cases search : genericFront.search? (header a) with
  | none =>
      refine ⟨fun _ => ?_, fun opened => ?_⟩
      · rw [generics, generics, joined, spaced, genericsOf_eq, genericsOf_eq, genericClause?_closing_of_none blank search]
      · obtain ⟨found, found_mem, -⟩ := opened
        rw [search] at found_mem
        cases found_mem
  | some found =>
      obtain ⟨front, opening, there⟩ := exists_clauseAt search
      refine ⟨fun closed => ?_, fun opened more => ?_⟩
      · have ends : clauseEnd <:+: (header a).drop found.stop.position := by
          by_contra endless
          exact closed ⟨found, search, endless⟩
        obtain ⟨clause, same⟩ := there.genericClause?_append ends
        rw [generics, generics, joined, spaced, genericsOf_eq, genericsOf_eq, closing, closing, same, same]
      · obtain ⟨found', found_mem, endless⟩ := opened
        obtain rfl : found = found' := Option.some.inj (search.symm.trans found_mem)
        exact ⟨_, runsOn_of_open blank joined spaced there endless more⟩

end

/-- Blanks between a parenthesis and the semicolon behind it never change the ports, and they change the generics only
at the end of the generic clause. There the clause runs on. -/
theorem declarations_closing :
    ports (closing a g b) = ports (closing a [] b) ∧
      (¬ EndsClause a b → generics (closing a g b) = generics (closing a [] b)) ∧
      (EndsClause a b → g ≠ [] → ∃ clause rest, RunsOn a g b clause rest) := by
  rcases headerOf_closing unmarked with ⟨rest, crosses⟩ | avoids
  · have around : ∀ g, (∀ c ∈ g, Text.isBlank c = true) → header (closing a g b) = closing (header a) g rest :=
      fun g blank => by rw [header_closing unmarked blank, header_front unmarked, crosses g blank]
    have joined := around [] (List.forall_mem_nil _)
    have spaced := around g blank
    -- The header holds the joint here, so that only the clause is left to ask for.
    have ends : EndsClause a b ↔ LeavesOpen (header a) := by
      refine ⟨fun ends => ends.2, fun opened => ⟨⟨rest, ?_⟩, opened⟩⟩
      rw [joined]
      simp [closing, clauseEnd]
    obtain ⟨same, runsOn⟩ := generics_of_crossesJoint blank joined spaced
    refine ⟨?_, fun kept => same fun opened => kept (ends.mpr opened), fun opened more => ?_⟩
    · rw [ports, ports, joined, spaced, portsOf_closing blank]
    · obtain ⟨clause, runs⟩ := runsOn (ends.mp opened) more
      exact ⟨clause, rest, runs⟩
  · obtain ⟨same, never⟩ := declarations_of_avoidsJoint unmarked blank avoids
    refine ⟨?_, fun _ => ?_, fun ends => absurd ends never⟩
    · rw [ports, ports, same]
    · rw [generics, generics, same]

end Sources

def widthFront : Text := "entity e is generic ( W : integer := 8"

def widthRest : Text := " port ( a : in std_logic ); end e;"

/-- With a blank at its end, the clause of the source goes on to the end of the ports, which are found as before. -/
theorem declarations_closing_width :
    Unmarked (closing widthFront [] widthRest) ∧ EndsClause widthFront widthRest ∧
      ports (closing widthFront [' '] widthRest) = ports (closing widthFront [] widthRest) ∧
      ∃ clause rest, RunsOn widthFront [' '] widthRest clause rest := by
  have unmarked : Unmarked (closing widthFront [] widthRest) := by decide +kernel
  have ends : EndsClause widthFront widthRest := by decide +kernel
  obtain ⟨ports, -, runsOn⟩ := declarations_closing (g := [' ']) unmarked (by decide)
  exact ⟨unmarked, ends, ports, runsOn ends (by decide)⟩

/-- A blank at the end of the clause changes the generics: the default gets the parenthesis, and a port is taken for a
generic. -/
theorem generics_closing_width :
    generics (closing widthFront [] widthRest) =
        [{ name := "W", dataType := some "integer".toList, width := none, default := some "8".toList }] ∧
      generics (closing widthFront [' '] widthRest) =
        [{ name := "W", dataType := some "integer".toList, width := none, default := some "8)".toList },
          { name := "a", dataType := some "in".toList, width := none, default := none }] := by
  decide +kernel

end Pinout.Vhdl
