import Pinout.Proofs.Pattern.Halting
import Pinout.Proofs.Text.Pairs
import Pinout.Proofs.Vhdl.GenericScan

/-! # Where generic clauses open

A generic clause is looked for from the first place on at which one opens, and it goes on to the first parenthesis with
a semicolon right behind it. So what stands behind the opening decides alone, and the place of the opening is the same
whatever follows it.
-/

namespace Pinout.Vhdl

variable {before : Option Char} {s t x y code front opening rest clause : Text}

theorem genericFront_endsAt : genericFront.EndsAt '(' :=
  Pattern.endsAt_append_char (by decide)

/-- The clause that is found from a place on. -/
def clauseFrom (before : Option Char) (t : Text) : Option Text :=
  (genericBlockPattern.scan before t).head?.map (·.group 1)

theorem genericClause?_eq_clauseFrom (code : Text) : genericClause? code = clauseFrom none code := by
  rw [genericClause?, clauseFrom, ← Pattern.map_reading_search? rfl, Option.map_map]
  exact congrArg (Option.map · _) (funext fun found => (found.group_reading 1).symm)

theorem clauseFrom_of_quiet (quiet : genericFront.Quiet before x s) :
    clauseFrom before (x ++ s) = clauseFrom (lastOf before x) s := by
  rw [clauseFrom, Pattern.scan_of_quiet (quiet.imp fun _ _ => refuses_genericBlockPattern), clauseFrom]

theorem clauseEnd_infix {a : Reading} (h : a ∈ genericBlockPattern.readings before t) : clauseEnd <:+: a.text := by
  obtain ⟨first, -, _, -, closing, hclosing, rfl⟩ := Pattern.exists_of_mem_append h
  obtain rfl := Pattern.mem_exactly hclosing
  exact (List.suffix_append first.text _).isInfix

/-- The first generic clause of a text opens between `front` and `rest`. -/
structure ClauseAt (code front opening rest : Text) : Prop where
  split : code = front ++ (opening ++ rest)
  first : genericFront.Quiet none front (opening ++ rest)
  opens : genericFront.Takes (lastOf none front) opening [] rest

theorem exists_clauseAt {found : Match} (h : genericFront.search? code = some found) :
    ∃ front opening, ClauseAt code front opening (code.drop found.stop.position) := by
  obtain ⟨front, rest, split, first, taken, -, stop⟩ := Pattern.exists_of_find? rfl h
  have kept : found.reading.kept = [] := Pattern.kept_eq_nil (fun _ => rfl) taken.mem
  rw [kept] at taken
  have behind : code.drop found.stop.position = rest := by
    rw [stop, split, ← List.append_assoc, List.drop_left' (by simp)]
  exact ⟨front, found.reading.text, by rwa [behind], by rwa [behind], by rwa [behind]⟩

namespace ClauseAt

variable (h : ClauseAt code front opening rest)
include h

theorem parenthesis_mem : '(' ∈ opening :=
  Vhdl.parenthesis_mem h.opens.mem

theorem append (s : Text) : ClauseAt (code ++ s) front opening (rest ++ s) where
  split := by rw [h.split, List.append_assoc, List.append_assoc]
  first := by
    rw [← List.append_assoc]
    exact (genericFront_endsAt.quiet (List.mem_append_left rest h.parenthesis_mem) s).mpr h.first
  opens := by
    rw [Pattern.Takes, ← List.append_assoc,
      genericFront_endsAt.readings_append (List.mem_append_left rest h.parenthesis_mem)]
    exact h.opens

theorem parenthesis_not_mem : ')' ∉ opening :=
  Pattern.not_mem_of_never (by decide) h.opens.mem

theorem genericClause?_eq : genericClause? code = clauseFrom (lastOf none front) (opening ++ rest) := by
  rw [genericClause?_eq_clauseFrom, h.split, clauseFrom_of_quiet h.first]

theorem genericClause?_eq_some (split : rest = clause ++ (clauseEnd ++ s)) (first : ¬ clauseEnd <:+: clause ++ [')']) :
    genericClause? code = some clause := by
  have block : (.group 1 (.few fun _ => true) ++ .exactly ");" : Pattern).Takes (lastOf (lastOf none front) opening)
      (clause ++ clauseEnd) [(1, clause)] s := by
    refine Pattern.Takes.few (by simp) (fun u v split more => Pattern.refuses_exactly fun ends => first ?_)
      Pattern.takes_exactly
    have short : clauseEnd.length ≤ (v ++ [')']).length := by
      have := List.length_pos_of_ne_nil more
      simp only [clauseEnd, List.length_append, List.length_cons, List.length_nil]
      omega
    have inside : v ++ [')'] <+: v ++ (clauseEnd ++ s) := ⟨';' :: s, by simp [clauseEnd]⟩
    have front := List.prefix_of_prefix_length_le ends inside short
    rw [split, List.append_assoc]
    exact front.isInfix.trans (List.suffix_append u _).isInfix
  have taken : genericBlockPattern.Takes (lastOf none front) (opening ++ (clause ++ clauseEnd)) [(1, clause)] s := by
    rw [Pattern.Takes, readings_genericBlockPattern]
    have opens := h.opens
    rw [split, ← List.append_assoc] at opens
    exact opens.append block
  rw [h.genericClause?_eq, split, ← List.append_assoc clause, ← List.append_assoc opening, clauseFrom,
    Pattern.scan_of_takes taken (taken.ne_nil rfl)]
  rfl

omit h in
/-- A clause that ends in a text is found whatever follows the text. -/
theorem genericClause?_append (h : ClauseAt code front opening rest) (ends : clauseEnd <:+: rest) :
    ∃ clause, ∀ s, genericClause? (code ++ s) = some clause := by
  obtain ⟨clause, behind, split, first⟩ := Text.exists_first_pair ends
  refine ⟨clause, fun s => (h.append s).genericClause?_eq_some (s := behind ++ s) ?_ first⟩
  rw [split]
  simp [clauseEnd]

theorem genericClause?_eq_none (endless : ¬ clauseEnd <:+: rest) : genericClause? code = none := by
  have quiet : genericBlockPattern.Quiet (lastOf none front) (opening ++ rest) [] := by
    refine Pattern.quiet_of_forall fun y c z split => Pattern.refuses_iff.mpr fun a ha => endless ?_
    have ends := clauseEnd_infix ha
    have part : a.text <:+: opening ++ rest := by
      rw [split]
      rw [List.append_nil] at ha
      exact (Pattern.front_of_mem ha).isInfix.trans (List.suffix_append y _).isInfix
    rcases Text.pair_infix_append.mp (ends.trans part) with inside | inside | ⟨last, -⟩
    · exact absurd (inside.subset List.mem_cons_self) h.parenthesis_not_mem
    · exact inside
    · exact absurd (List.mem_of_getLast? last) h.parenthesis_not_mem
  rw [h.genericClause?_eq, clauseFrom, Pattern.scan_eq_nil_of_quiet rfl quiet]
  rfl

end ClauseAt

end Pinout.Vhdl
