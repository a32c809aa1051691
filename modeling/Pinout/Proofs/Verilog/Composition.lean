import Pinout.Proofs.Pattern.Settled
import Pinout.Proofs.Text.Trim
import Pinout.Proofs.Verilog.Declarations
import Pinout.Proofs.Verilog.TestbenchReadBack

/-! # Sources one after the other

Where a source ends with a whole declaration, what follows it is read as if it stood alone. No comment is
open across the place, no range is, and a keyword in front of the last semicolon needs nothing behind it.
So the ports and the parameters of the two parts are reported together, and the first module has the name.
-/

namespace Pinout.Verilog

open Pattern (HaltsAt ClosesLast haltsAt_of_never haltsAt_bracketed closedBehind_closesLast)

variable {s t x : Text} {p : Pattern} {found : Match}

private theorem haltsAt_range {lead tail : Pattern} (range : p.HaltsAt ';' (ClosesLast '[' ']'))
    (front : lead.mayRead ';' = false) (back : tail.mayRead ';' = false) :
    (lead ++ (.optional (p ++ .blanks) ++ tail)).HaltsAt ';' (ClosesLast '[' ']') := by
  have blanks : (p ++ .blanks).HaltsAt ';' (ClosesLast '[' ']') :=
    range.append closedBehind_closesLast (haltsAt_of_never (by decide))
  have named := blanks.optional.append closedBehind_closesLast (haltsAt_of_never back)
  exact (haltsAt_of_never front).append closedBehind_closesLast named

theorem portPattern_haltsAt : portPattern.HaltsAt ';' (ClosesLast '[' ']') := by
  have range : (.char '[' ++ .group 3 (unbracketed ++ .char ':' ++ unbracketed) ++ .char ']' : Pattern).HaltsAt ';'
      (ClosesLast '[' ']') := haltsAt_bracketed (by decide) (by decide) (by decide)
  refine (haltsAt_range range ?_ ?_).congr fun before t => Pattern.readings_append_assoc _ _ _ before t
  · decide
  · decide

theorem parameterPattern_haltsAt : parameterPattern.HaltsAt ';' (ClosesLast '[' ']') := by
  have range : (.char '[' ++ unbracketed ++ .char ']' : Pattern).HaltsAt ';' (ClosesLast '[' ']') :=
    haltsAt_bracketed (by decide) (by decide) (by decide)
  have front : (.boundary ++ .exactly "parameter" ++ .gap ++ .repeated parameterType : Pattern).mayRead ';' = false := by
    decide
  have back : nameTail.mayRead ';' = false := by decide
  refine (haltsAt_range range front back).congr fun before t => ?_
  rw [readings_parameterPattern]
  simp only [packedTail, Pattern.readings_append_assoc]

theorem modulePattern_haltsAt : modulePattern.HaltsAt ';' (ClosesLast '[' ']') :=
  haltsAt_of_never (by decide)

/-- A source that ends with its line behind a whole declaration. -/
structure EndsDeclaration (source : Text) : Prop where
  /-- The last line is ended. -/
  line : ['\n'] <:+ source
  /-- No comment is left open. -/
  closed : ¬ "/*".toList <:+: stripComments source
  /-- The last declaration is ended. -/
  ended : (Text.trim (stripComments source)).getLast? = some ';'
  /-- No range is left open. -/
  bracket : ClosesLast '[' ']' (stripComments source)

namespace EndsDeclaration

variable (whole : EndsDeclaration s)
include whole

theorem stripComments_append (t : Text) : stripComments (s ++ t) = stripComments s ++ stripComments t :=
  Verilog.stripComments_append (.inr whole.line) whole.closed t

/-- In front of the last semicolon no range is open, and behind it there are blanks only. -/
theorem exists_last : ∃ x g, stripComments s = x ++ ';' :: g ∧ ClosesLast '[' ']' x ∧ ∀ c ∈ g, Text.isBlank c = true := by
  obtain ⟨g, h, -, blank, split⟩ := Text.exists_trim (stripComments s)
  obtain ⟨y, last⟩ := List.getLast?_eq_some_iff.mp whole.ended
  rw [last, List.append_assoc, List.singleton_append, ← List.append_assoc] at split
  have bracket := whole.bracket
  rw [split] at bracket
  refine ⟨g ++ y, h, split, bracket.of_append fun c hc => ?_, blank⟩
  have plain : Text.isBlank '[' = false ∧ Text.isBlank ']' = false := by decide
  rcases List.mem_cons.mp hc with rfl | hc
  · decide
  · constructor
    · rintro rfl
      exact absurd (blank '[' hc) (by simp [plain])
    · rintro rfl
      exact absurd (blank ']' hc) (by simp [plain])

/-- The search for declarations begins anew behind the source. -/
theorem scan_append (begins : p.BeginsWord) (halts : p.HaltsAt ';' (ClosesLast '[' ']')) (reads : p.nullable = false)
    (closed : p.opens ';' = false) (t : Text) : p.scan none (stripComments (s ++ t)) =
      p.scan none (stripComments s) ++ p.scan none (stripComments t) := by
  obtain ⟨x, g, split, closes, blank⟩ := whole.exists_last
  have plain : ∀ c ∈ ';' :: g, Text.isWord c = false := by
    intro c hc
    rcases List.mem_cons.mp hc with rfl | hc
    · decide
    · exact Text.isWord_of_isBlank (blank c hc)
  have quiet : ∀ s, p.Quiet (some ';') g s := fun s =>
    begins.quiet_of_no_word fun c hc => plain c (List.mem_cons_of_mem _ hc)
  have outside : (lastOf (some ';') g).any Text.isWord = (none : Option Char).any Text.isWord :=
    Pattern.any_lastOf_eq_false (by decide) fun c hc => plain c (List.mem_cons_of_mem _ hc)
  have behind : ∀ t, p.scan none (x ++ ';' :: (g ++ t)) =
      p.scan none (x ++ [';']) ++ p.scan none t := by
    intro t
    rw [halts.scan_append closedBehind_closesLast reads closed closes, Pattern.scan_of_quiet (quiet t),
      Pattern.scan_behind reads outside]
  have alone := behind []
  rw [List.append_nil, Pattern.scan_nil reads, List.append_nil] at alone
  rw [whole.stripComments_append, split, List.append_assoc, List.cons_append, behind, alone]

end EndsDeclaration

/-- What is read of two sources one after the other, if the first one ends with a declaration. -/
theorem declarations_append (whole : EndsDeclaration s) (t : Text) :
    ports (s ++ t) = (do return (← ports s) ++ (← ports t)) ∧
      generics (s ++ t) = generics s ++ generics t ∧
      unitName (s ++ t) =
        if (modulePattern.search? (stripComments s)).isSome then unitName s else unitName t := by
  refine ⟨?_, ?_, ?_⟩
  · rw [ports_eq_scan, whole.scan_append portPattern_ledBy.begins portPattern_haltsAt rfl (by decide), List.mapM_append,
      ports_eq_scan, ports_eq_scan]
  · rw [generics_eq_scan, whole.scan_append parameterPattern_ledBy.begins parameterPattern_haltsAt rfl (by decide),
      List.map_append, generics_eq_scan, generics_eq_scan]
  · have found := Pattern.map_reading_search? (p := modulePattern) rfl (stripComments s)
    rw [unitName_eq_scan, whole.scan_append modulePattern_ledBy.begins modulePattern_haltsAt rfl (by decide),
      List.head?_append, ← found, unitName_eq_scan s, unitName_eq_scan t, ← found]
    cases modulePattern.search? (stripComments s) <;> rfl

/-- A module with a list of port names, whose last declaration has a comment behind it. -/
def rangedModule : Text :=
  "module m(a);\nparameter W = 4;\ninput [W:0] a; // :\n"

/-- A module that is read behind another one. -/
def singleModule : Text :=
  "module n #(parameter D = 2)(output b);"

theorem declarations_append_modules : EndsDeclaration rangedModule ∧
    ports (rangedModule ++ singleModule) =
      .ok [⟨"a", .input, "wire", some "W:0"⟩, ⟨"b", .output, "wire", some "1"⟩] ∧
    (generics (rangedModule ++ singleModule)).map Generic.name = ["W", "D"] ∧
    unitName (rangedModule ++ singleModule) = "m" := by
  have whole : EndsDeclaration rangedModule := ⟨by decide, by decide, by decide, by decide⟩
  obtain ⟨both, parameters, name⟩ := declarations_append whole singleModule
  have first : ports rangedModule = .ok [⟨"a", .input, "wire", some "W:0"⟩] := by decide
  have second : ports singleModule = .ok [⟨"b", .output, "wire", some "1"⟩] := by decide
  have names : (generics rangedModule ++ generics singleModule).map Generic.name = ["W", "D"] := by decide
  have named : (modulePattern.search? (stripComments rangedModule)).isSome = true ∧ unitName rangedModule = "m" := by
    decide
  rw [first, second] at both
  rw [if_pos named.1, named.2] at name
  exact ⟨whole, both, parameters ▸ names, name⟩

end Pinout.Verilog
