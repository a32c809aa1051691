import Pinout.Proofs.Pattern.Standing
import Pinout.Proofs.Vhdl.GenericOpening
import Pinout.Proofs.Vhdl.GenericReading
import Pinout.Proofs.Vhdl.LiteralPorts

/-! # Generics around a string literal

A default goes on across a literal up to the next semicolon, so that only the default holds it. Elsewhere in the clause
no generic goes on across a literal, unless a range is left open. So with another literal in its place the same generics
are found, up to their defaults, if neither literal opens or ends the clause or has a generic in it.
-/

namespace Pinout.Vhdl

open Pattern (Stops stops_cons)

variable {before : Option Char} {c e g h n r s s' t v w x y : Text}

theorem settled_boundsPart (before : Option Char) (v : Text) : boundsPart.Settled '"' before v ∨
    ∃ a s, a ∈ boundsPart.readings before s ∧ v ++ ['"'] <+: a.text := by
  by_cases closes : ')' ∈ v
  · have ends : boundsPart.EndsAt ')' := Pattern.endsAt_append_char (by decide)
    exact .inl (ends.settled closes)
  by_cases refuses : ∀ t, boundsPart.Refuses before (v ++ '"' :: t)
  · exact .inl (.inr refuses)
  obtain ⟨t, reads⟩ := not_forall.mp refuses
  obtain ⟨a, rest, first⟩ := List.exists_cons_of_ne_nil reads
  have read : a ∈ boundsPart.readings before (v ++ '"' :: t) := first ▸ List.mem_cons_self
  have quote : v ++ ['"'] <+: v ++ '"' :: t := ⟨t, by simp⟩
  refine .inr ⟨a, _, read, (List.prefix_or_prefix_of_prefix quote (Pattern.front_of_mem read)).resolve_right fun inside => ?_⟩
  have closing := inside.subset (closing_mem_of_mem_boundsPart read)
  simp [closes] at closing

/-- A default that is left open goes on across a quote to the next semicolon. -/
theorem takes_defaultPart_quote (blank : ∀ c ∈ g, Text.isBlank c = true) (blank' : ∀ c ∈ h, Text.isBlank c = true)
    (visible : Stops Text.isBlank e) (endless : ';' ∉ e) (endless' : ';' ∉ n) (stops : Stops (· != ';') t) :
    defaultPart.Takes before (g ++ (":=".toList ++ (h ++ e)) ++ '"' :: n) [(6, e ++ '"' :: n)] t := by
  have plain : ∀ c ∈ e ++ '"' :: n, c ≠ ';' := by
    rintro c hc rfl
    simp [endless, endless'] at hc
  have first : Stops Text.isBlank (e ++ '"' :: n) := by
    cases e with
    | nil => exact stops_cons.mpr (by decide)
    | cons c e => exact visible
  have whole : defaultPart.Takes before (g ++ (":=".toList ++ (h ++ (e ++ '"' :: n)))) _ t :=
    takes_defaultPart_spaced blank blank' (by simp) first plain stops
  simpa only [List.append_assoc] using whole

theorem not_mark_prefix_quote (unmarked : ¬ ":=".toList <+: y) (t : Text) : ¬ ":=".toList <+: y ++ '"' :: t := by
  rw [show ":=".toList = [':', '='] from rfl] at unmarked ⊢
  intro mark
  rcases y with _ | ⟨c, _ | ⟨d, y⟩⟩
  · exact absurd (List.cons_prefix_cons.mp mark).1 (by decide)
  · exact absurd (List.cons_prefix_cons.mp (List.cons_prefix_cons.mp mark).2).1 (by decide)
  · obtain ⟨rfl, more⟩ := List.cons_prefix_cons.mp mark
    obtain ⟨rfl, -⟩ := List.cons_prefix_cons.mp more
    exact unmarked ⟨y, rfl⟩

theorem settled_defaultPart (before : Option Char) (v : Text) : defaultPart.Settled '"' before v ∨
    ∃ g h e, v = g ++ (":=".toList ++ (h ++ e)) ∧ (∀ c ∈ g, Text.isBlank c = true) ∧ (∀ c ∈ h, Text.isBlank c = true) ∧
      Stops Text.isBlank e ∧ ';' ∉ e := by
  by_cases ends : ';' ∈ v
  · have never : defaultPart.EndsAt ';' := Pattern.endsAt_of_never (by decide)
    exact .inl (never.settled ends)
  obtain ⟨g, rest, rfl, blank, visible⟩ := Pattern.exists_run Text.isBlank v
  by_cases marked : ":=".toList <+: rest
  · obtain ⟨d, rfl⟩ := marked
    obtain ⟨h, e, rfl, blank', visible'⟩ := Pattern.exists_run Text.isBlank d
    exact .inr ⟨g, h, e, rfl, blank, blank', visible', fun he => ends (by simp [he])⟩
  · refine .inl (.inr fun t => ?_)
    rw [List.append_assoc]
    refine refuses_defaultPart_of_not_prefix blank ?_ (not_mark_prefix_quote marked t)
    cases rest with
    | nil => exact stops_cons.mpr (by decide)
    | cons c rest => exact visible

def genericHead : Pattern :=
  .group 1 .word ++ .blanks ++ .char ':' ++ .blanks ++ .group 2 .word

theorem genericPattern_eq : genericPattern = genericHead ++ .optional boundsPart ++ .optional defaultPart := rfl

theorem refuses_genericPattern_iff : genericPattern.Refuses before t ↔ genericHead.Refuses before t := by
  rw [genericPattern_eq]
  exact ⟨fun refuses => refuses.of_optional.of_optional, fun refuses => refuses.append.append⟩

/-- A quote behind the clause stands inside the parentheses of a range. -/
def LeavesRangeOpen (clause : Text) : Prop :=
  genericPattern.LeavesOpen (genericHead ++ boundsPart.fronts) (clause ++ ['"'])

/-- A quote behind the clause stands in a default. -/
def LeavesDefaultOpen (clause : Text) : Prop :=
  ∃ found ∈ genericPattern.findAll (clause ++ ['"']), found.stop.rest = []

instance (clause : Text) : Decidable (LeavesRangeOpen clause) :=
  inferInstanceAs (Decidable (Pattern.LeavesOpen _ _ _))

instance (clause : Text) : Decidable (LeavesDefaultOpen clause) :=
  inferInstanceAs (Decidable (∃ found ∈ _, _))

/-- The generics declared in a clause, without their defaults. -/
def signaturesIn (clause : Text) : List Generic :=
  (genericPattern.scan none clause).map fun r => signature (genericRead r)

theorem map_signature_genericsIn (clause : Text) : (genericsIn clause).map signature = signaturesIn clause :=
  List.map_map

theorem map_scan_genericPattern (before : Option Char) (t : Text) :
    (genericPattern.scan before t).map (fun r => signature (genericRead r)) = signaturesIn t := by
  rw [signaturesIn, Pattern.scan_anywhere rfl rfl before none]

theorem signaturesIn_quote (t : Text) : signaturesIn ('"' :: t) = signaturesIn t := by
  have refuses : genericPattern.Refuses none ('"' :: t) := Pattern.refuses_of_stops rfl (stops_cons.mpr (by decide))
  rw [signaturesIn, Pattern.scan_of_refuses refuses, map_scan_genericPattern]

theorem signaturesIn_append (missing : genericHead.search? x = none)
    (ends : Stops (fun c => c != '"' && c != ';') t) : signaturesIn (x ++ t) = signaturesIn t := by
  have alone : genericHead.Quiet none x [] := Pattern.quiet_of_find?_eq_none missing
  have quiet : genericPattern.Quiet none x t := by
    refine Pattern.Quiet.imp (fun _ _ => refuses_genericPattern_iff.mpr) ?_
    cases t with
    | nil => exact alone
    | cons c t =>
        have mark : c = '"' ∨ c = ';' := by simpa [or_iff_not_imp_left] using stops_cons.mp ends
        rcases mark with rfl | rfl
        · exact (Pattern.quiet_stop (t := []) (by decide) (by decide)).mpr alone
        · exact (Pattern.quiet_stop (t := []) (by decide) (by decide)).mpr alone
  rw [signaturesIn, Pattern.scan_of_quiet quiet, map_scan_genericPattern]

/-- What is declared in a clause with a quote behind it. -/
inductive ClauseFront (clause : Text) : Prop
  | closed (told : List Generic) (lists : ∀ t, signaturesIn (clause ++ '"' :: t) = told ++ signaturesIn t)
      (closed : ¬ LeavesDefaultOpen clause)
  | default (told : List Generic) (lists : ∀ n t, ';' ∉ n → Stops (· != ';') t →
        signaturesIn (clause ++ '"' :: (n ++ t)) = told ++ signaturesIn t)
      (opened : LeavesDefaultOpen clause)

theorem clauseFront (closed : ¬ LeavesRangeOpen c) : ClauseFront c := by
  cases Pattern.arrives (p := genericPattern) rfl '"' none 0 c with
  | settled told scans ends =>
      refine .closed (told.map fun r => signature (genericRead r)) (fun t => ?_) fun ⟨found, mem, ended⟩ => ends found mem ended
      rw [signaturesIn, scans, List.map_append, map_scan_genericPattern]
  | unsettled told u z split across scans found =>
      have front : (genericHead ++ .optional boundsPart).Settled '"' (lastOf none u) z := by
        refine (Pattern.settled_of_never (by decide) _ z).append_optional fun x v kept split' takes => ?_
        refine (settled_boundsPart _ v).resolve_right fun ⟨a, s, read, inside⟩ => closed ?_
        rw [split', List.append_assoc] at found
        exact Pattern.leavesOpen_of_takes rfl (fun _ _ => refuses_genericPattern_iff.mp) (takes []) read rfl inside found
      obtain ⟨x, v, kept, split', takes, opened⟩ : ∃ x v kept, z = x ++ v ∧
          (∀ t, (genericHead ++ .optional boundsPart).Takes (lastOf none u) x kept (v ++ '"' :: t)) ∧
          ¬ defaultPart.Settled '"' (lastOf (lastOf none u) x) v := by
        by_contra nowhere
        push Not at nowhere
        exact across (front.append_optional nowhere)
      obtain ⟨g, h, e, rfl, blank, blank', visible, endless⟩ := (settled_defaultPart _ v).resolve_left opened
      have taken : ∀ n t, ';' ∉ n → Stops (· != ';') t →
          genericPattern.Takes (lastOf none u) (z ++ '"' :: n) ((6, e ++ '"' :: n) :: kept) t := fun n t absent stops => by
        have rest : defaultPart.Takes (lastOf (lastOf none u) x) _ _ t :=
          takes_defaultPart_quote blank blank' visible endless absent stops
        have first := takes (n ++ t)
        rw [← List.cons_append, ← List.append_assoc] at first
        rw [split', List.append_assoc]
        exact first.append (.left rest)
      refine .default (told.map (fun r => signature (genericRead r)) ++ [signature (genericRead ⟨[], kept⟩)])
        (fun n t absent stops => ?_) ?_
      · have text : z ++ '"' :: (n ++ t) = (z ++ '"' :: n) ++ t := by rw [List.append_assoc, List.cons_append]
        rw [signaturesIn, scans, text, Pattern.scan_of_takes (taken n t absent stops) (by simp), List.map_append,
          List.map_cons, map_scan_genericPattern, List.append_assoc, List.singleton_append]
        rfl
      · obtain ⟨whole, -, stop, here⟩ := Pattern.matchesFrom_of_takes
          (taken [] [] List.not_mem_nil Pattern.stops_nil) (by simp) (0 + u.length)
        rw [List.append_nil] at here
        exact ⟨whole, found (here ▸ List.mem_cons_self), by rw [stop]⟩

/-- The part of the first generic clause that stands in the text, if the clause does not end there. -/
def openClause? (y : Text) : Option Text :=
  match genericFront.search? y with
  | none => none
  | some found =>
    let clause := y.drop found.stop.position
    if clauseEnd <:+: clause then none else some clause

/-- A quote behind the text stands inside the parentheses behind the type of a generic. -/
def LeavesGenericOpen (y : Text) : Prop :=
  ∃ clause ∈ openClause? y, LeavesRangeOpen clause

instance (y : Text) : Decidable (LeavesGenericOpen y) :=
  inferInstanceAs (Decidable (∃ clause ∈ _, _))

/-- What a literal may hold in an open clause: not the end of the clause, and no generic unless a default holds it. -/
structure KeepsClause (clause s : Text) : Prop where
  endless : ¬ clauseEnd <:+: s
  outside : ¬ LeavesDefaultOpen clause → genericHead.search? s = none
  inDefault : LeavesDefaultOpen clause → genericHead.search? (s.dropWhile (· != ';')) = none

instance (clause s : Text) : Decidable (KeepsClause clause s) :=
  decidable_of_iff (¬ clauseEnd <:+: s ∧ (¬ LeavesDefaultOpen clause → genericHead.search? s = none) ∧
      (LeavesDefaultOpen clause → genericHead.search? (s.dropWhile (· != ';')) = none))
    ⟨fun ⟨endless, outside, inDefault⟩ => ⟨endless, outside, inDefault⟩, fun h => ⟨h.endless, h.outside, h.inDefault⟩⟩

/-- What a literal behind a text may hold that the same generics are found as with another one. -/
structure KeepsGenerics (y s : Text) : Prop where
  unopened : genericFront.search? y = none → genericFront.search? s = none
  opened : ∀ clause ∈ openClause? y, KeepsClause clause s

instance (y s : Text) : Decidable (KeepsGenerics y s) :=
  decidable_of_iff ((genericFront.search? y = none → genericFront.search? s = none) ∧
      ∀ clause ∈ openClause? y, KeepsClause clause s)
    ⟨fun ⟨unopened, opened⟩ => ⟨unopened, opened⟩, fun h => ⟨h.unopened, h.opened⟩⟩

/-- If only one of the literals ends the default that it stands in, no generic begins between them and the next
semicolon. -/
def EndDefaultsAlike (y r s s' : Text) : Prop :=
  ∀ clause ∈ openClause? y, LeavesDefaultOpen clause →
    (';' ∈ s ↔ ';' ∈ s') ∨ genericHead.search? (r.takeWhile (· != ';')) = none

instance (y r s s' : Text) : Decidable (EndDefaultsAlike y r s s') :=
  inferInstanceAs (Decidable (∀ clause ∈ _, _))

theorem signaturesIn_dropWhile (missing : genericHead.search? (r.takeWhile (· != ';')) = none) :
    signaturesIn r = signaturesIn (r.dropWhile (· != ';')) := by
  have stops : Stops (fun c => c != '"' && c != ';') (r.dropWhile (· != ';')) := fun c hc => by
    simp [Pattern.stops_dropWhile (· != ';') r c hc]
  rw [← signaturesIn_append missing stops, List.takeWhile_append_dropWhile]

theorem signaturesIn_literal (closed : ¬ LeavesRangeOpen c) (plain : KeepsClause c s) (plain' : KeepsClause c s')
    (alike : LeavesDefaultOpen c → (';' ∈ s ↔ ';' ∈ s') ∨ genericHead.search? (r.takeWhile (· != ';')) = none) :
    signaturesIn (c ++ (literal s ++ r)) = signaturesIn (c ++ (literal s' ++ r)) := by
  have parts : ∀ s, c ++ (literal s ++ r) = c ++ '"' :: (s ++ '"' :: r) := fun s => by simp [literal]
  rw [parts, parts]
  cases clauseFront closed with
  | closed told lists closed =>
      have same : ∀ {s}, KeepsClause c s → signaturesIn (c ++ '"' :: (s ++ '"' :: r)) = told ++ signaturesIn r :=
        fun {s} plain => by
          rw [lists, signaturesIn_append (plain.outside closed) (stops_cons.mpr (by decide)), signaturesIn_quote]
      rw [same plain, same plain']
  | default told lists opened =>
      have goesOn : ∀ {s}, ';' ∉ s →
          signaturesIn (c ++ '"' :: (s ++ '"' :: r)) = told ++ signaturesIn (r.dropWhile (· != ';')) := fun {s} absent => by
        have rest : s ++ '"' :: r = (s ++ '"' :: r.takeWhile (· != ';')) ++ r.dropWhile (· != ';') := by simp
        rw [rest, lists _ _ ?_ (Pattern.stops_dropWhile _ r)]
        intro mem
        rcases List.mem_append.mp mem with mem | mem
        · exact absent mem
        · have inside := List.mem_takeWhile_imp ((List.mem_cons.mp mem).resolve_left (by decide))
          simp at inside
      have ends : ∀ {s}, KeepsClause c s → ';' ∈ s →
          signaturesIn (c ++ '"' :: (s ++ '"' :: r)) = told ++ signaturesIn r := fun {s} plain mem => by
        have rest : s ++ '"' :: r = s.takeWhile (· != ';') ++ (s.dropWhile (· != ';') ++ '"' :: r) := by
          rw [← List.append_assoc, List.takeWhile_append_dropWhile]
        rw [rest, lists, signaturesIn_append (plain.inDefault opened) (stops_cons.mpr (by decide)), signaturesIn_quote]
        · intro mem
          have inside := List.mem_takeWhile_imp mem
          simp at inside
        · refine Pattern.stops_append (fun nothing => ?_) (Pattern.stops_dropWhile _ s)
          simpa using List.dropWhile_eq_nil_iff.mp nothing ';' mem
      by_cases mem : ';' ∈ s <;> by_cases mem' : ';' ∈ s'
      · rw [ends plain mem, ends plain' mem']
      · have missing := (alike opened).resolve_left (by simp [mem, mem'])
        rw [ends plain mem, goesOn mem', signaturesIn_dropWhile missing]
      · have missing := (alike opened).resolve_left (by simp [mem, mem'])
        rw [goesOn mem, ends plain' mem', signaturesIn_dropWhile missing]
      · rw [goesOn mem, goesOn mem']

theorem genericClause?_unopened (missing : genericFront.search? y = none) (missing' : genericFront.search? s = none)
    (r : Text) : genericClause? (y ++ (literal s ++ r)) = clauseFrom (some '"') r := by
  have front : genericFront.Quiet none y ('"' :: (s ++ ['"'] ++ r)) :=
    (Pattern.quiet_stop (t := []) (by decide) (by decide)).mpr (Pattern.quiet_of_find?_eq_none missing)
  have inside : genericFront.Quiet (lastOf none y) (literal s) r :=
    quiet_literal rfl (by decide) (Pattern.quiet_of_find?_eq_none missing') _ _
  rw [genericClause?_eq_clauseFrom, ← List.append_assoc, clauseFrom_of_quiet (Pattern.Quiet.append front inside),
    lastOf_append, lastOf_literal]

theorem not_clauseEnd_infix_literal (front : ¬ clauseEnd <:+: y) (inside : ¬ clauseEnd <:+: s) (behind : ¬ clauseEnd <:+: r) :
    ¬ clauseEnd <:+: y ++ (literal s ++ r) := by
  have quoted : ¬ clauseEnd <:+: s ++ ['"'] := fun ends => by
    rcases Text.pair_infix_append.mp ends with ends | ends | ⟨-, next⟩
    · exact inside ends
    · exact absurd ends.length_le (by decide)
    · exact absurd next (by decide)
  intro ends
  rcases Text.pair_infix_append.mp ends with ends | ends | ⟨-, next⟩
  · exact front ends
  · rcases Text.pair_infix_append.mp ends with ends | ends | ⟨last, -⟩
    · rcases Text.pair_infix_cons.mp ends with ⟨first, -⟩ | ends
      · exact absurd first (by decide)
      · exact quoted ends
    · exact behind ends
    · rw [literal, ← List.cons_append, List.getLast?_concat] at last
      exact absurd last (by decide)
  · simp [literal] at next

/-- What a literal behind a text may hold that the same generic clause is found as with another one. -/
structure KeepsBlock (y s : Text) : Prop where
  unopened : genericFront.search? y = none → genericFront.search? s = none
  endless : ∀ clause ∈ openClause? y, ¬ clauseEnd <:+: s

theorem KeepsGenerics.block (h : KeepsGenerics y s) : KeepsBlock y s :=
  ⟨h.unopened, fun clause opened => (h.opened clause opened).endless⟩

/-- The generic clause is the same with each literal, or it holds the literal and goes on as with any other one. -/
theorem genericClause?_literal (y r : Text) :
    (∃ clause?, ∀ s, KeepsBlock y s → genericClause? (y ++ (literal s ++ r)) = clause?) ∨
      ∃ clause ∈ openClause? y, ∃ more, more <+: r ∧
        ∀ s, KeepsBlock y s → genericClause? (y ++ (literal s ++ r)) = some (clause ++ (literal s ++ more)) := by
  cases search : genericFront.search? y with
  | none => exact .inl ⟨_, fun s keeps => genericClause?_unopened search (keeps.unopened search) r⟩
  | some found =>
      obtain ⟨front, opening, there⟩ := exists_clauseAt search
      have opened : openClause? y = if clauseEnd <:+: y.drop found.stop.position then none else
          some (y.drop found.stop.position) := by rw [openClause?, search]
      generalize y.drop found.stop.position = c at there opened
      by_cases ends : clauseEnd <:+: c
      · obtain ⟨clause, same⟩ := there.genericClause?_append ends
        exact .inl ⟨_, fun s _ => same _⟩
      rw [if_neg ends] at opened
      have endless : ∀ s, KeepsBlock y s → ¬ clauseEnd <:+: s := fun s keeps => keeps.endless c opened
      by_cases ends' : clauseEnd <:+: r
      · obtain ⟨more, behind, rfl, first⟩ := Text.exists_first_pair ends'
        refine .inr ⟨c, opened, more, List.prefix_append _ _, fun s keeps => ?_⟩
        refine (there.append _).genericClause?_eq_some (s := behind) (by simp [clauseEnd]) ?_
        simpa only [List.append_assoc] using not_clauseEnd_infix_literal ends (endless s keeps) first
      · exact .inl ⟨none, fun s keeps =>
          (there.append _).genericClause?_eq_none (not_clauseEnd_infix_literal ends (endless s keeps) ends')⟩

/-- The same generics are found whatever the literal is, up to their defaults. -/
theorem genericsOf_literal (closed : ¬ LeavesGenericOpen y) (plain : KeepsGenerics y s) (plain' : KeepsGenerics y s')
    (alike : EndDefaultsAlike y w s s') (front : r <+: w) :
    (genericsOf (y ++ (literal s ++ r))).map signature = (genericsOf (y ++ (literal s' ++ r))).map signature := by
  rw [genericsOf_eq, genericsOf_eq]
  rcases genericClause?_literal y r with ⟨clause?, same⟩ | ⟨c, opened, more, inside, same⟩
  · rw [same s plain.block, same s' plain'.block]
  · rw [same s plain.block, same s' plain'.block]
    simp only [Option.map_some, Option.getD_some, map_signature_genericsIn]
    refine signaturesIn_literal (fun open' => closed ⟨c, opened, open'⟩) (plain.opened c opened) (plain'.opened c opened)
      fun default => ?_
    refine (alike c opened default).imp_right fun missing => Pattern.search?_eq_none_of_prefix rfl rfl ?_ missing
    obtain ⟨u, rfl⟩ := inside.trans front
    exact Text.takeWhile_prefix_append

end Pinout.Vhdl
