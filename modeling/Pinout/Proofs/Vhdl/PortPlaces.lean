import Pinout.Proofs.Pattern.Locality
import Pinout.Proofs.Pattern.Settled
import Pinout.Proofs.Text.Pairs
import Pinout.Proofs.Vhdl.PortReading

/-! # Places that decide about ports

A range is read up to the first parenthesis that closes, if that is on the same line. So a text that ends with such a
parenthesis decides by itself which ports begin in it.
-/

namespace Pinout.Vhdl

variable {before : Option Char} {g m s w x y : Text}

def portHead : Pattern :=
  .group 1 .word ++ .blanks ++ .char ':' ++ .blanks ++
    .group 2 (.keyword "inout" <|> .keyword "in" <|> .keyword "out") ++ .gap ++
    .group 3 (.keyword "std_" ++ .optional (.keyword "u") ++ .keyword "logic" ++
      .optional (.keyword "_vector")) ++
    .boundary

theorem portPattern_eq : portPattern = portHead ++ .optional (.group 4 rangePart) := rfl

def inRange (c : Char) : Bool :=
  c != ')' && c != '\n'

theorem eq_of_not_inRange {c : Char} (h : inRange c = false) : c = ')' ∨ c = '\n' := by
  simpa [inRange, or_iff_not_imp_left] using h

theorem refuses_rangePart_of_break (blank : ∀ c ∈ g, Text.isBlank c = true) (plain : ∀ c ∈ m, c ≠ ')' ∧ c ≠ '\n')
    (ends : Pattern.Stops (· != '\n') s) : rangePart.Refuses before (g ++ '(' :: (m ++ s)) := by
  rw [rangePart, Pattern.refuses_append_assoc, Pattern.refuses_append_assoc]
  refine Pattern.refuses_many_run blank (Pattern.stops_cons.mpr (by decide)) rfl
    (fun _ => Text.forall_blank (fun c => (Pattern.char '(' ++ _).opens c = false) (by decide)) ?_
  refine Pattern.refuses_append fun opening t hopening split => ?_
  obtain ⟨-, rfl⟩ := Pattern.mem_char.mp hopening
  obtain ⟨-, rfl⟩ := List.cons.inj split
  refine Pattern.refuses_append fun range t hrange split => ?_
  have stops : Pattern.Stops (Pattern.mayRead (.group 5 (.few (· != '\n')))) s := ends
  have inside : range.text <+: m := Pattern.front_of_stopped stops hrange
  obtain ⟨rest, rfl⟩ := inside
  rw [List.append_assoc] at split
  obtain rfl := List.append_cancel_left split
  refine Pattern.refuses_of_stops rfl ?_
  cases rest with
  | nil =>
      intro c hc
      obtain rfl : c = '\n' := by simpa using ends c hc
      decide
  | cons c rest => exact Pattern.stops_cons.mpr (by simpa [Pattern.char, Pattern.opens] using (plain c (by simp)).1)

/-- What a text begins with as far as ranges go: no parenthesis behind its blanks, or one that the text closes, or one
whose line ends, or one that is left open. -/
inductive RangeFront : Text → Prop
  | blank (g : Text) (blank : ∀ c ∈ g, Text.isBlank c = true) : RangeFront g
  | other (g : Text) (c : Char) (s : Text) (blank : ∀ c ∈ g, Text.isBlank c = true) (visible : Text.isBlank c = false)
      (differs : c ≠ '(') : RangeFront (g ++ c :: s)
  | closed (g m s : Text) (blank : ∀ c ∈ g, Text.isBlank c = true) (plain : ∀ c ∈ m, c ≠ ')' ∧ c ≠ '\n') :
      RangeFront (g ++ '(' :: (m ++ ')' :: s))
  | broken (g m s : Text) (blank : ∀ c ∈ g, Text.isBlank c = true) (plain : ∀ c ∈ m, c ≠ ')' ∧ c ≠ '\n') :
      RangeFront (g ++ '(' :: (m ++ '\n' :: s))
  | left (g m : Text) (blank : ∀ c ∈ g, Text.isBlank c = true) (plain : ∀ c ∈ m, c ≠ ')' ∧ c ≠ '\n') :
      RangeFront (g ++ '(' :: m)

theorem rangeFront (x : Text) : RangeFront x := by
  obtain ⟨g, rest, rfl, blank, stops⟩ := Pattern.exists_run Text.isBlank x
  cases rest with
  | nil =>
      rw [List.append_nil]
      exact .blank g blank
  | cons c rest =>
      have visible := Pattern.stops_cons.mp stops
      by_cases opens : c = '('
      · obtain rfl := opens
        obtain ⟨m, behind, rfl, inside, ends⟩ := Pattern.exists_run inRange rest
        have plain : ∀ c ∈ m, c ≠ ')' ∧ c ≠ '\n' := fun c hc => by simpa [inRange] using inside c hc
        cases behind with
        | nil =>
            rw [List.append_nil]
            exact .left g m blank plain
        | cons d behind =>
            rcases eq_of_not_inRange (Pattern.stops_cons.mp ends) with rfl | rfl
            · exact .closed g m behind blank plain
            · exact .broken g m behind blank plain
      · exact .other g c rest blank visible opens

/-- A text that ends with a closing parenthesis leaves no range open. -/
theorem decided_rangePart (w : Text) : rangePart.Decided before (w ++ [')']) := by
  have last : (w ++ [')']).getLast? = some ')' := List.getLast?_concat
  generalize w ++ [')'] = x at last
  cases rangeFront x with
  | blank _ blank => exact absurd (blank ')' (List.mem_of_getLast? last)) (by decide)
  | other g c s blank visible differs =>
      refine .inr fun t => ?_
      rw [List.append_assoc]
      exact refuses_rangePart blank visible differs
  | closed g m s blank plain =>
      refine .inl ⟨g ++ (['('] ++ (m ++ [')'])), s, _, by simp, fun t => takes_rangePart blank plain⟩
  | broken g m s blank plain =>
      refine .inr fun t => ?_
      rw [List.append_assoc, List.cons_append, List.append_assoc]
      exact refuses_rangePart_of_break blank plain (Pattern.stops_cons.mpr (by decide))
  | left g m blank plain =>
      rw [List.getLast?_append_of_ne_nil _ (by simp)] at last
      rcases List.mem_cons.mp (List.mem_of_getLast? last) with other | inside
      · exact absurd other (by decide)
      · exact absurd rfl (plain _ inside).1

theorem decided_portPattern (y : Text) : portPattern.Decided before (y ++ [')']) := by
  rw [portPattern_eq]
  have never : portHead.mayRead ')' = false := by decide
  refine (Pattern.settled_of_never never before y).decided.append_optional fun u z kept split takes => ?_
  have absent : ')' ∉ u := Pattern.not_mem_of_never never (takes []).mem
  obtain ⟨w, -, rfl⟩ := Text.append_cons_of_not_mem absent split
  exact (decided_rangePart w).group 4

theorem scan_portPattern_closing (y s : Text) :
    portPattern.scan before (y ++ ')' :: s) = portPattern.scan before (y ++ [')']) ++ portPattern.scan (some ')') s :=
  Pattern.scan_append_cons_of_decided (fun _ z _ => decided_portPattern z) rfl s

end Pinout.Vhdl
