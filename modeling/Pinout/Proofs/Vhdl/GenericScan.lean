import Pinout.Proofs.Vhdl.GenericClause
import Pinout.Proofs.Vhdl.HeaderScan

/-! # Where generic clauses end

An end clause ends at the separator behind a declaration or not at all, and a generic clause ends at the
first parenthesis with a separator behind it. So each declaration alone decides whether both stay open.
-/

namespace Pinout.Vhdl

variable {before : Option Char} {s x y : Text} {name : Name} {d : GenericDeclaration}
  {ds : List GenericDeclaration}

theorem text_of_mem_end {a : Reading} (absent : ';' ∉ x)
    (h : a ∈ entityEndPattern.readings before (x ++ ';' :: s)) : a.text = x ++ [';'] := by
  have front := Pattern.front_of_mem h
  obtain ⟨read, hread, _, -, semicolon, hsemicolon, rfl⟩ := Pattern.exists_of_mem_append h
  obtain ⟨-, rfl⟩ := Pattern.mem_char.mp hsemicolon
  have inside : ';' ∉ read.text := Pattern.not_mem_of_never (by decide) hread
  have stops : ∀ t, Pattern.Stops (· != ';') (';' :: t) := fun t => Pattern.stops_cons.mpr (by decide)
  obtain ⟨rest, split⟩ := front
  simp only [Reading.append, List.append_assoc, List.singleton_append] at split ⊢
  rw [(Pattern.run_unique split.symm (Text.forall_bne absent) (stops s) (Text.forall_bne inside)
    (stops rest)).1]

theorem exists_split {z : Text} (split : margin ++ d.text ++ [';'] = y ++ z) (more : z ≠ []) :
    ∃ v, z = v ++ [';'] ∧ ';' ∉ v ∧ ';' ∉ y := by
  obtain ⟨v, c, last⟩ : ∃ v c, z = v ++ [c] := ⟨_, _, (List.dropLast_append_getLast more).symm⟩
  rw [last, ← List.append_assoc] at split
  obtain ⟨text, closing⟩ := List.append_inj' split rfl
  obtain rfl : ';' = c := by simpa using closing
  have plain : ';' ∉ y ++ v := by
    rw [← text, List.mem_append, not_or]
    exact ⟨by decide, fun h => (d.plain _ h).1 rfl⟩
  rw [List.mem_append, not_or] at plain
  exact ⟨v, last, plain.2, plain.1⟩

/-- An end clause that begins in a declaration ends at the separator behind it. -/
theorem inside_declaration {z w u : Text} (split : margin ++ d.text ++ [';'] = y ++ (z ++ w)) (more : z ++ w ≠ [])
    {a : Reading} (h : a ∈ entityEndPattern.readings before (z ++ (w ++ u))) : a.text <+: z ++ w := by
  obtain ⟨v, last, absent, -⟩ := exists_split split more
  rw [← List.append_assoc, last, List.append_assoc, List.singleton_append] at h
  rw [last, text_of_mem_end absent h]

theorem any_break (s : Text) : ([] : Text).head?.any Text.isWord = ('\n' :: s).head?.any Text.isWord := by
  have plain : Text.isWord '\n' = false := by decide
  simp [plain]

theorem quiet_break (before : Option Char) (s : Text) : entityEndPattern.Quiet before ['\n'] s :=
  Pattern.quiet_of_closed rfl (by decide)

theorem quiet_line (h : entityEndPattern.search? (margin ++ d.text ++ [';']) = none) (before : Option Char)
    (s : Text) : entityEndPattern.Quiet before (d.line ++ [';']) ('\n' :: s) := by
  have alone : entityEndPattern.Quiet none (margin ++ d.text ++ [';']) [] := Pattern.quiet_of_find?_eq_none h
  have there : entityEndPattern.Quiet none (margin ++ d.text ++ [';']) ('\n' :: s) :=
    alone.elsewhere rfl (any_break s) fun y z split more before a ha => by
      have inside := inside_declaration (w := []) (by rwa [List.append_nil]) (by simpa using more) ha
      rwa [List.append_nil] at inside
  exact (quiet_break before _).append (entityEndPattern_beginsWord.quiet_behind there _)

theorem exists_end_of_search? {found : Match}
    (h : entityEndPattern.search? (margin ++ d.text ++ [';']) = some found) :
    ∃ u v, margin ++ d.text ++ [';'] = u ++ v ∧ ';' ∉ u ∧
      ∀ before s, entityEndPattern.Quiet before ('\n' :: u) (v ++ '\n' :: s) ∧
        ¬ entityEndPattern.Refuses (lastOf before ('\n' :: u)) (v ++ '\n' :: s) := by
  obtain ⟨u, v, split, quiet, reading⟩ := Pattern.exists_quiet_of_find? rfl h
  have more : v ≠ [] := by
    rintro rfl
    exact reading (Pattern.refuses_of_stops rfl Pattern.stops_nil)
  obtain ⟨-, -, -, absent⟩ := exists_split split more
  refine ⟨u, v, split, absent, fun before s => ⟨?_, fun refused => reading ?_⟩⟩
  · rw [← List.append_nil v] at quiet
    have there : entityEndPattern.Quiet none u (v ++ '\n' :: s) :=
      quiet.elsewhere_append rfl (any_break s) fun y z parts _ before a ha =>
        inside_declaration (by rw [split, parts, List.append_assoc]) (by simp [more]) ha
    exact (quiet_break before _).append (entityEndPattern_beginsWord.quiet_behind there _)
  · refine Pattern.refuses_iff.mpr fun a ha => Pattern.refuses_iff.mp refused a ?_
    have front := Pattern.front_of_mem ha
    rw [← List.append_nil v] at ha
    exact Pattern.mem_readings_local (any_break s) ha front (Pattern.any_lastOf_congr (by decide) u)

theorem GenericDeclaration.semicolon_not_mem_line (d : GenericDeclaration) : ';' ∉ d.line := by
  rw [line, ← List.cons_append, List.mem_append, not_or]
  exact ⟨by decide, fun h => (d.plain _ h).1 rfl⟩

/-- A text without separators does not end a generic clause, unless its last parenthesis does. -/
theorem quiet_clauseEnd (absent : ';' ∉ x) (ends : x.getLast? ≠ some ')' ∨ Pattern.Stops (· == ';') s) :
    (Pattern.exactly clauseEnd).Quiet before x s := by
  refine Pattern.quiet_of_forall fun y c z split => Pattern.refuses_exactly fun pair => ?_
  rw [clauseEnd] at pair
  obtain ⟨rfl, separator⟩ := List.cons_prefix_cons.mp pair
  cases z with
  | nil =>
      rcases ends with last | stops
      · exact last (by simp [split])
      · obtain ⟨rest, rfl⟩ := separator
        exact absurd (stops ';' rfl) (by decide)
  | cons d z =>
      obtain ⟨rfl, -⟩ := List.cons_prefix_cons.mp separator
      exact absent (by simp [split])

theorem genericClause?_eq_none (quiet : (Pattern.exactly clauseEnd).Quiet none x []) :
    genericClause? x = none := by
  have missing : genericBlockPattern.search? x = none := by
    refine Pattern.find?_eq_none_of_quiet rfl (Pattern.quiet_of_forall fun y c z split => ?_) 0
    refine Pattern.refuses_iff.mpr fun a ha => ?_
    obtain ⟨read, -, rest, place, closing, hclosing, rfl⟩ := Pattern.exists_of_mem_append ha
    cases rest with
    | nil =>
        exact Pattern.refuses_iff.mp (Pattern.refuses_of_stops rfl Pattern.stops_nil) closing hclosing
    | cons d rest =>
        rw [List.append_nil] at place
        rw [split, place, ← List.append_assoc] at quiet
        have refused := quiet.refuses
        rw [lastOf_append, List.append_nil] at refused
        exact Pattern.refuses_iff.mp refused closing hclosing
  rw [genericClause?, missing]
  rfl

def genericWord : Text := "generic"

theorem quiet_opening (name : Name) (s : Text) :
    genericBlockPattern.Quiet none (opening name [' '] [' '] ++ clauseGap) s := by
  have fits : Token.Fits ([Token.word "entity", Token.word name.text, Token.word "is"] ++ [Token.mark s])
      [[' '], [' '], clauseGap, []] :=
    ⟨⟨by decide, by simp, by simp [Token.word]⟩, ⟨by decide, by simp, by simp [Token.word]⟩,
      ⟨by decide, by simp [clauseGap], by simp [Token.word]⟩, ⟨by simp, by simp, by simp⟩, trivial⟩
  have quiet := unread_generic_opening name [Token.mark s] _ fits none
  have text : opening name [' '] [' '] ++ clauseGap = Token.layOut
      [Token.word "entity", Token.word name.text, Token.word "is"] [[' '], [' '], clauseGap, []] := by
    simp only [opening, List.append_assoc]
    rfl
  have behind : Token.layOut [Token.mark s] [[]] = s := by
    simp [Token.layOut, Token.mark]
  rw [text, ← behind]
  exact quiet.imp fun _ _ => refuses_genericBlockPattern

theorem genericClause?_eq_some (name : Name)
    (quiet : (Pattern.exactly clauseEnd).Quiet (some '(') y (clauseEnd ++ s)) :
    genericClause? (opening name [' '] [' '] ++ (clauseOpening ++ (y ++ (clauseEnd ++ s)))) = some y := by
  have edge : isEdge (some ' ') (genericWord ++ ([' '] ++ (['('] ++ (y ++ clauseEnd))) ++ s) = true :=
    Pattern.isEdge_front (by decide) (by decide)
  have block : (.group 1 (.few fun _ => true) ++ .exactly ");" : Pattern).Takes (some '(') (y ++ clauseEnd)
      [(1, y)] s := by
    refine Pattern.Takes.few (by simp) (fun u v split more => ?_) Pattern.takes_exactly
    obtain ⟨c, v, rfl⟩ := List.exists_cons_of_ne_nil more
    rw [split] at quiet
    exact quiet.refuses
  have taken : genericBlockPattern.Takes (some ' ') (genericWord ++ ([' '] ++ (['('] ++ (y ++ clauseEnd))))
      [(1, y)] s := by
    rw [Pattern.Takes, readings_genericBlockPattern]
    change Pattern.Takes _ _ _ _ _
    simp only [genericFront, Pattern.Takes.assoc]
    exact .append (x := []) (.boundary edge) (.append (Pattern.takes_keyword (Spelling.spells ⟨genericWord, rfl⟩))
      (.append (Pattern.takes_blanks (by decide) (Pattern.stops_cons.mpr (by decide)))
        (.append Pattern.takes_char block)))
  have text : opening name [' '] [' '] ++ (clauseOpening ++ (y ++ (clauseEnd ++ s))) =
      (opening name [' '] [' '] ++ clauseGap) ++
        ((genericWord ++ ([' '] ++ (['('] ++ (y ++ clauseEnd)))) ++ s) := by
    have words : clauseOpening = clauseGap ++ (genericWord ++ ([' '] ++ ['('])) := rfl
    simp only [words, List.append_assoc]
  have passed := Pattern.find?_of_quiet (quiet_opening name
    ((genericWord ++ ([' '] ++ (['('] ++ (y ++ clauseEnd)))) ++ s)) 0
  obtain ⟨found, search, -, -, reading⟩ := Pattern.find?_of_takes taken
    (0 + (opening name [' '] [' '] ++ clauseGap).length)
  have behind : lastOf none (opening name [' '] [' '] ++ clauseGap) = some ' ' := by
    rw [lastOf_append]
    rfl
  rw [behind, search] at passed
  rw [genericClause?, text, Pattern.search?, Cursor.start, passed, Option.map_some, ← Match.group_reading,
    reading]
  rfl

theorem getLast?_line (d : GenericDeclaration) : d.line.getLast? = (genericDeclaration d.generic).getLast? := by
  rw [genericDeclaration_generic, GenericDeclaration.line, ← List.singleton_append,
    List.getLast?_append_of_ne_nil _ (by simp [margin])]

theorem quiet_clauseEnd_items (keeps : ∀ d ∈ ds, KeepsOpen d.generic) (before : Option Char) (s : Text) :
    (Pattern.exactly clauseEnd).Quiet before (items ds) ('\n' :: s) := by
  refine quiet_items (fun d hd before s => ?_) before s
  have absent : ';' ∉ d.line := d.semicolon_not_mem_line
  refine .append (quiet_clauseEnd absent (.inl ?_)) (Pattern.quiet_of_closed rfl (by decide))
  rw [getLast?_line]
  exact (keeps d hd).1

end Pinout.Vhdl
