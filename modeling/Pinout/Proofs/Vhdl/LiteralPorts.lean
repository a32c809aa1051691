import Pinout.Proofs.Extraction
import Pinout.Proofs.Pattern.Exchange
import Pinout.Proofs.Pattern.Standing
import Pinout.Proofs.Vhdl.Declarations
import Pinout.Proofs.Vhdl.Literals
import Pinout.Proofs.Vhdl.PortPlaces

/-! # Ports around a string literal

Only a range goes on across a literal. So with another literal in its place, and no port in either of them, the same
ports are found, up to the literal itself in the width of a port.
-/

namespace Pinout.Vhdl

open Pattern (ReadsAlike Stops stops_cons)

variable {R : Reading → Reading → Prop} {before : Option Char} {g m r s s' u v y z : Text} {kept : List (Nat × Text)}

theorem mem_literal_iff {c : Char} (differs : c ≠ '"') : c ∈ literal s ↔ c ∈ s := by
  simp [literal, differs]

theorem lastOf_literal (before : Option Char) (s : Text) : lastOf before (literal s) = some '"' := by
  rw [literal, lastOf_cons, lastOf_append]
  rfl

/-- What is not found in the contents of a literal does not begin in the literal, if it cannot go on across a quote. -/
theorem quiet_literal {p : Pattern} (reads : p.nullable = false) (never : p.mayRead '"' = false)
    (quiet : p.Quiet none s []) (before : Option Char) (t : Text) : p.Quiet before (literal s) t := by
  have refused : ∀ before t, p.Refuses before ('"' :: t) := fun before t => Pattern.refuses_iff.mpr fun a ha => by
    have stops : Stops p.mayRead ('"' :: t) := stops_cons.mpr never
    exact Pattern.ne_nil_of_mem reads ha (List.prefix_nil.mp (Pattern.front_of_stopped (x := []) stops ha))
  have contents : p.Quiet (some '"') s ([] ++ '"' :: t) :=
    (Pattern.quiet_stop never (by decide)).mpr (quiet.behind rfl)
  exact ⟨refused _ _, Pattern.Quiet.append contents ⟨refused _ _, trivial⟩⟩

theorem IsContents.inRange (contents : IsContents s) (closes : ')' ∉ s) : ∀ c ∈ literal s, inRange c = true := by
  intro c hc
  have inside : c ≠ ')' := by
    rintro rfl
    exact closes ((mem_literal_iff (by decide)).mp hc)
  have inline : c ≠ '\n' := by
    rintro rfl
    exact contents.inline ((mem_literal_iff (by decide)).mp hc)
  simp [Vhdl.inRange, inside, inline]

theorem readsAlike_rangePart_of_left (blank : ∀ c ∈ g, Text.isBlank c = true) (plain : ∀ c ∈ m, c ≠ ')' ∧ c ≠ '\n')
    (inside : ∀ c ∈ literal s, inRange c = true) (inside' : ∀ c ∈ literal s', inRange c = true)
    (related : ∀ text text' x w, R ⟨text, [(5, x ++ (literal s ++ w))]⟩ ⟨text', [(5, x ++ (literal s' ++ w))]⟩) :
    ReadsAlike R rangePart (literal s) (literal s') r before (g ++ '(' :: m) := by
  obtain ⟨n, behind, rfl, run, ends⟩ := Pattern.exists_run inRange r
  have within : ∀ {s}, (∀ c ∈ literal s, inRange c = true) → ∀ c ∈ m ++ (literal s ++ n), c ≠ ')' ∧ c ≠ '\n' :=
    fun inside => List.forall_mem_append.mpr ⟨plain, List.forall_mem_append.mpr
      ⟨fun c hc => by simpa [inRange] using inside c hc, fun c hc => by simpa [inRange] using run c hc⟩⟩
  have refused : Stops (· != '\n') behind → ∀ {s}, (∀ c ∈ literal s, inRange c = true) →
      rangePart.Refuses before (g ++ '(' :: m ++ (literal s ++ (n ++ behind))) := fun stops s inside => by
    have broken : rangePart.Refuses before (g ++ '(' :: (m ++ (literal s ++ n) ++ behind)) :=
      refuses_rangePart_of_break blank (within inside) stops
    simpa only [List.append_assoc, List.cons_append] using broken
  cases behind with
  | nil => exact .nothing (refused Pattern.stops_nil inside) (refused Pattern.stops_nil inside')
  | cons d behind =>
      rcases eq_of_not_inRange (stops_cons.mp ends) with rfl | rfl
      · have taken : ∀ {s}, (∀ c ∈ literal s, inRange c = true) → rangePart.Takes before
            (g ++ '(' :: m ++ (literal s ++ (n ++ [')']))) [(5, m ++ (literal s ++ n))] behind := fun {s} inside => by
          have whole : rangePart.Takes before (g ++ (['('] ++ (m ++ (literal s ++ n) ++ [')']))) _ behind :=
            takes_rangePart blank (within inside)
          simpa only [List.append_assoc, List.cons_append, List.nil_append] using whole
        exact .across (by simp) (taken inside) (taken inside') (related _ _ m n)
      · exact .nothing (refused (stops_cons.mpr (by decide)) inside) (refused (stops_cons.mpr (by decide)) inside')

theorem settled_rangePart (before : Option Char) (v : Text) : rangePart.Settled '"' before v ∨
    ∃ g m, v = g ++ '(' :: m ∧ (∀ c ∈ g, Text.isBlank c = true) ∧ ∀ c ∈ m, c ≠ ')' ∧ c ≠ '\n' := by
  cases rangeFront v with
  | blank _ blank => exact .inl (.inr fun t => refuses_rangePart blank (by decide) (by decide))
  | other g c w blank visible differs =>
      refine .inl (.inr fun t => ?_)
      rw [List.append_assoc]
      exact refuses_rangePart blank visible differs
  | closed g m w blank plain =>
      exact .inl (.inl ⟨g ++ (['('] ++ (m ++ [')'])), w, _, by simp, fun t => takes_rangePart blank plain⟩)
  | broken g m w blank plain =>
      refine .inl (.inr fun t => ?_)
      rw [List.append_assoc, List.cons_append, List.append_assoc]
      exact refuses_rangePart_of_break blank plain (stops_cons.mpr (by decide))
  | left g m blank plain => exact .inr ⟨g, m, rfl, blank, plain⟩

theorem readsAlike_rangePart (inside : ∀ c ∈ literal s, inRange c = true) (inside' : ∀ c ∈ literal s', inRange c = true)
    (related : ∀ text text' x w, R ⟨text, [(5, x ++ (literal s ++ w))]⟩ ⟨text', [(5, x ++ (literal s' ++ w))]⟩) :
    ReadsAlike R rangePart (literal s) (literal s') r before v := by
  rcases settled_rangePart before v with (⟨u, w, kept, rfl, takes⟩ | refuses) | ⟨g, m, rfl, blank, plain⟩
  · exact .inside rfl (takes _) (takes _)
  · exact .nothing (refuses _) (refuses _)
  · exact readsAlike_rangePart_of_left blank plain inside inside' related

/-- A quote behind the text stands inside the parentheses behind the type of a port. -/
def LeavesPortOpen (t : Text) : Prop :=
  portPattern.LeavesOpen (portHead ++ rangePart.fronts) (t ++ ['"'])

instance (t : Text) : Decidable (LeavesPortOpen t) :=
  inferInstanceAs (Decidable (Pattern.LeavesOpen _ _ _))

/-- Two widths that differ at most in a literal that both of them hold. -/
inductive WidthAlike (s s' : Text) : Option Text → Option Text → Prop
  | same (width : Option Text) : WidthAlike s s' width width
  | literal (x w : Text) : WidthAlike s s' (some (x ++ (literal s ++ w))) (some (x ++ (literal s' ++ w)))

/-- Two ports that differ at most in a literal that the width of either holds. -/
def PortAlike (s s' : Text) (p p' : Port) : Prop :=
  ∃ width, p' = { p with width } ∧ WidthAlike s s' p.width width

theorem PortAlike.refl (p : Port) : PortAlike s s' p p :=
  ⟨p.width, rfl, .same _⟩

theorem exists_trim_literal (x w : Text) :
    ∃ x' w', ∀ s, Text.trim (x ++ (literal s ++ w)) = x' ++ (literal s ++ w') := by
  obtain ⟨g, x', rfl, blank, first⟩ := Pattern.exists_run Text.isBlank x
  obtain ⟨h, v, reversed, blank', last⟩ := Pattern.exists_run Text.isBlank w.reverse
  refine ⟨x', v.reverse, fun s => ?_⟩
  have split : w = v.reverse ++ h.reverse := by rw [← List.reverse_append, ← reversed, List.reverse_reverse]
  calc Text.trim (g ++ x' ++ (literal s ++ w))
      = Text.trim (g ++ (x' ++ (literal s ++ v.reverse) ++ h.reverse)) := by simp only [split, List.append_assoc]
    _ = Text.trim (x' ++ (literal s ++ v.reverse)) := by
      rw [Text.trim_blanks_append blank, Text.trim_append_blanks fun c hc => blank' c (List.mem_reverse.mp hc)]
    _ = x' ++ (literal s ++ v.reverse) := Text.trim_eq_self ?_ ?_
  · cases x' with
    | nil => simp [literal, show Text.isBlank '"' = false by decide]
    | cons c x' => exact first
  · cases v with
    | nil =>
        have last : (x' ++ (literal s ++ [])).getLast? = some '"' := by
          rw [List.append_nil, literal, ← List.cons_append, ← List.append_assoc, List.getLast?_concat]
        intro c hc
        obtain rfl := Option.some.inj (hc.symm.trans last)
        decide
    | cons c v =>
        rw [← List.append_assoc, List.getLast?_append_of_ne_nil _ (by simp), List.getLast?_reverse]
        exact last

/-- A range with a literal in it shows the literal, or is not shown at all. -/
theorem portWidth_literal (s s' type x w : Text) :
    WidthAlike s s' (portWidth type (some (x ++ (literal s ++ w)))) (portWidth type (some (x ++ (literal s' ++ w)))) := by
  by_cases vector : "_vector".toList <:+ Text.toLower type
  · obtain ⟨x', w', trimmed⟩ := exists_trim_literal x w
    have shown : ∀ s, portWidth type (some (x ++ (literal s ++ w))) = some (x' ++ (literal s ++ w')) := fun s => by
      obtain ⟨c, rest, more⟩ := List.exists_cons_of_ne_nil (l := x ++ (literal s ++ w)) (by simp [literal])
      rw [← trimmed, more]
      exact if_pos vector
    rw [shown, shown]
    exact .literal x' w'
  · have scalar : ∀ range, portWidth type range = some scalarWidth := fun range => if_neg vector
    rw [scalar, scalar]
    exact .same _

theorem alike_portRead (text text' whole whole' x w : Text) (kept : List (Nat × Text)) :
    Extraction.Alike (PortAlike s s') (portRead ⟨text, (4, whole) :: (5, x ++ (literal s ++ w)) :: kept⟩)
      (portRead ⟨text', (4, whole') :: (5, x ++ (literal s' ++ w)) :: kept⟩) := by
  rw [portRead_range text [], portRead_range text' []]
  cases portRead ⟨[], kept⟩ with
  | error e => exact .error e
  | ok p => exact .ok ⟨_, rfl, portWidth_literal ..⟩

theorem quiet_port_literal (missing : portPattern.search? s = none) (before : Option Char) (t : Text) :
    portPattern.Quiet before (literal s) t := by
  have contents : portHead.Quiet none s [] :=
    (Pattern.quiet_of_find?_eq_none missing).imp fun before t refuses => by
      rw [portPattern_eq] at refuses
      exact refuses.of_optional
  refine (quiet_literal rfl (by decide) contents before t).imp fun before t refuses => ?_
  rw [portPattern_eq]
  exact refuses.append

theorem exists_scan_quote (closed : ¬ LeavesPortOpen y) :
    ∃ told, ∀ t, portPattern.scan none (y ++ '"' :: t) = told ++ portPattern.scan (some '"') t := by
  cases Pattern.arrives (p := portPattern) rfl '"' none 0 y with
  | settled told scans _ => exact ⟨told, scans⟩
  | unsettled told u z split across scans found =>
      refine absurd ?_ across
      rw [portPattern_eq]
      refine (Pattern.settled_of_never (by decide) _ z).append_optional fun x v kept split' takes => .group ?_ 4
      refine (settled_rangePart (lastOf (lastOf none u) x) v).resolve_right ?_
      rintro ⟨g, m, rfl, blank, plain⟩
      have range : ∀ c ∈ m ++ ['"'], c ≠ ')' ∧ c ≠ '\n' := List.forall_mem_append.mpr ⟨plain, by decide⟩
      have taken : rangePart.Takes none _ _ [] := takes_rangePart blank range
      rw [split', List.append_assoc] at found
      refine closed (Pattern.leavesOpen_of_takes rfl (fun _ _ refuses => ?_) (takes []) taken.mem rfl ⟨[')'], by simp⟩ found)
      rw [portPattern_eq] at refuses
      exact refuses.of_optional

section

variable (missing : portPattern.search? s = none) (missing' : portPattern.search? s' = none)
include missing missing'

/-- Where the literal is in no range, it makes no difference to the ports. -/
theorem portsOf_literal (closed : ¬ LeavesPortOpen y) (r : Text) :
    portsOf (y ++ (literal s ++ r)) = portsOf (y ++ (literal s' ++ r)) := by
  obtain ⟨told, scans⟩ := exists_scan_quote closed
  have behind : ∀ {s}, portPattern.search? s = none →
      portPattern.scan none (y ++ (literal s ++ r)) = told ++ portPattern.scan (some '"') r := fun {s} missing => by
    have inside := (quiet_port_literal missing none r).2
    have parts : y ++ (literal s ++ r) = y ++ '"' :: (s ++ ['"'] ++ r) := by simp [literal]
    rw [parts, scans, Pattern.scan_of_quiet inside, lastOf_append]
    rfl
  rw [portsOf_eq_scan, portsOf_eq_scan, behind missing, behind missing']

theorem alike_portsOf_literal (inside : ∀ c ∈ literal s, inRange c = true) (inside' : ∀ c ∈ literal s', inRange c = true)
    (y r : Text) : Extraction.Alike (List.Forall₂ (PortAlike s s')) (portsOf (y ++ (literal s ++ r)))
      (portsOf (y ++ (literal s' ++ r))) := by
  have same : ∀ a, Extraction.Alike (PortAlike s s') (portRead a) (portRead a) := fun a => .refl .refl _
  have last : ∀ before, lastOf before (literal s) = lastOf before (literal s') := fun before => by
    rw [lastOf_literal, lastOf_literal]
  rw [portsOf_eq_scan, portsOf_eq_scan]
  refine Extraction.alike_mapM (Pattern.forall₂_scan_exchange same rfl last
    (fun before => quiet_port_literal missing before r) (fun before => quiet_port_literal missing' before r)
    (fun before z _ _ => ?_) none)
  have head : portHead.Settled '"' before z := Pattern.settled_of_never (by decide) before z
  rw [portPattern_eq]
  refine .append_optional last (head.readsAlike (R := fun _ _ => False)) (fun u v kept split => .group ?_)
    fun _ unrelated => unrelated.elim
  exact readsAlike_rangePart inside inside' fun _ _ _ _ => alike_portRead _ _ _ _ _ _ _

end

end Pinout.Vhdl
