import Pinout.Proofs.Vhdl.GenericReading
import Pinout.Proofs.Vhdl.GenericScan

/-! # Reading generic clauses back

The generics of a printed entity are read back exactly if every declaration that another one follows
keeps the clause and the header open.
-/

namespace Pinout.Vhdl

variable {name : Name} {d last : GenericDeclaration} {front : List GenericDeclaration}

theorem quiet_clauseOpening (before : Option Char) (s : Text) : entityEndPattern.Quiet before clauseOpening s := by
  have words : clauseOpening = (clauseGap ++ (genericWord ++ [' '])) ++ ['('] := rfl
  rw [words]
  refine .append ?_ (Pattern.quiet_of_closed rfl (by decide))
  exact Pattern.quiet_of_missing (y := []) (fun _ _ _ => semicolon_mem) (by decide) (by decide)

theorem KeepsOpen.search? (h : KeepsOpen d.generic) :
    entityEndPattern.search? (margin ++ d.text ++ [';']) = none := by
  rw [← genericDeclaration_generic]
  exact h.2

theorem quiet_end_items (keeps : ∀ d ∈ front, KeepsOpen d.generic) (before : Option Char) (s : Text) :
    entityEndPattern.Quiet before (items front) ('\n' :: s) :=
  quiet_items (fun d hd => quiet_line (keeps d hd).search?) before s

theorem wordEnds_clauseOpening (s : Text) : Pattern.Stops Text.isWord (clauseOpening ++ s) :=
  Pattern.stops_cons.mpr (by decide)

theorem header_printed (keeps : ∀ d ∈ front, KeepsOpen d.generic) :
    header (printed name.text ((front ++ [last]).map GenericDeclaration.generic)) =
      opening name [' '] [' '] ++ (clauseOpening ++ (items front ++ (last.line ++
        (clauseGap ++ (clauseEnd ++ ['\n']))))) := by
  have space : ∀ c ∈ [' '], Text.isBlank c = true := by decide
  have words : endWord = "end".toList ++ [' '] := rfl
  have text : printed name.text ((front ++ [last]).map GenericDeclaration.generic) =
      opening name [' '] [' '] ++ (clauseOpening ++ (items front ++ (last.line ++
        (clauseGap ++ (clauseEnd ++ ['\n'])))) ++ ("end".toList ++ ([' '] ++ (name.text ++ ([] ++ [';']))))) := by
    rw [printed_eq]
    simp only [entityEnd, words, List.append_assoc, List.cons_append, List.nil_append]
  have masked := maskStrings_printed name front last
  have lastLine : entityEndPattern.Quiet (lastOf (lastOf (some 's') clauseOpening) (items front)) last.line
      (clauseGap ++ (clauseEnd ++ ['\n']) ++ ("end".toList ++ ([' '] ++ (name.text ++ ([] ++ [';']))))) := by
    refine Pattern.quiet_of_missing (y := clauseGap) (fun _ _ _ => semicolon_mem) (by decide) ?_
    rw [List.mem_append, not_or]
    exact ⟨last.semicolon_not_mem_line, by decide⟩
  rw [header, stripComments_printed]
  rw [text] at masked ⊢
  refine headerOf_opening name (by simp) (by simp) space space (wordEnds_clauseOpening _) masked ?_ ?_
  · refine .append (quiet_clauseOpening _ _) (.append (quiet_end_items keeps _ _) (.append lastLine ?_))
    exact Pattern.quiet_of_closed rfl (by decide)
  · refine not_refuses_end ?_ (by simp) space (by simp)
    have plain : Text.isWord '\n' = false := by decide
    simp only [lastOf_append]
    exact plain

theorem generics_printed (keeps : ∀ d ∈ front, KeepsOpen d.generic) :
    generics (printed name.text ((front ++ [last]).map GenericDeclaration.generic)) =
      (front ++ [last]).map GenericDeclaration.generic := by
  have quiet : (Pattern.exactly clauseEnd).Quiet (some '(') (items front ++ (last.line ++ clauseGap))
      (clauseEnd ++ ['\n']) := by
    refine .append (quiet_clauseEnd_items keeps _ _) (quiet_clauseEnd ?_ (.inr ?_))
    · rw [List.mem_append, not_or]
      exact ⟨last.semicolon_not_mem_line, by decide⟩
    · exact Pattern.stops_cons.mpr (by decide)
  have clause := genericClause?_eq_some name quiet
  obtain ⟨rs, after, all, found⟩ := scan_items front none (last.line ++ (clauseGap ++ []))
  obtain ⟨r, after', declares, foundLast⟩ := scan_line last (g := clauseGap) (by decide) (.inl rfl) after
  have scanned : List.Forall₂ (fun (d : GenericDeclaration) r => Declares d.generic r) (front ++ [last])
      (genericPattern.scan none (items front ++ (last.line ++ clauseGap))) := by
    rw [List.append_nil] at found foundLast
    rw [found, foundLast, Pattern.scan_nil rfl]
    exact List.rel_append all (.cons declares .nil)
  rw [← Pattern.reading_findAll, List.forall₂_map_right_iff] at scanned
  simp only [List.append_assoc] at clause
  rw [generics, header_printed keeps, genericsOf, clause]
  exact Extraction.map_eq (scanned.imp fun _ found declares => declares found rfl)

variable {ok rest : List GenericDeclaration}

theorem printed_split (name : Name) (ok : List GenericDeclaration) (d : GenericDeclaration)
    (rest : List GenericDeclaration) (last : GenericDeclaration) :
    ∃ more, printed name.text (((ok ++ d :: rest) ++ [last]).map GenericDeclaration.generic) =
      opening name [' '] [' '] ++ (clauseOpening ++ (items ok ++ (d.line ++ ([';'] ++ '\n' :: more)))) := by
  obtain ⟨more, behind⟩ : ∃ more, items rest ++ (last.line ++ (clauseGap ++ (clauseEnd ++ entityEnd name))) =
      '\n' :: more := by
    cases rest with
    | nil => exact ⟨_, rfl⟩
    | cons e rest => exact ⟨_, rfl⟩
  refine ⟨more, ?_⟩
  have lines : items (ok ++ d :: rest) = items ok ++ (d.line ++ ([';'] ++ items rest)) := by
    simp [items]
  rw [printed_eq, lines]
  simp only [List.append_assoc, behind]

section Split

variable (keeps : ∀ d ∈ ok, KeepsOpen d.generic)
  (readBack : generics (printed name.text (((ok ++ d :: rest) ++ [last]).map GenericDeclaration.generic)) =
    ((ok ++ d :: rest) ++ [last]).map GenericDeclaration.generic)
include keeps readBack

/-- An end clause in a declaration leaves nothing to read. -/
theorem search?_eq_none_of_readBack : entityEndPattern.search? (margin ++ d.text ++ [';']) = none := by
  have space : ∀ c ∈ [' '], Text.isBlank c = true := by decide
  obtain ⟨more, text⟩ := printed_split name ok d rest last
  have masked := maskStrings_printed name (ok ++ d :: rest) last
  have stripped := stripComments_printed name (ok ++ d :: rest) last
  cases found : entityEndPattern.search? (margin ++ d.text ++ [';']) with
  | none => rfl
  | some found' =>
      obtain ⟨u, v, split, absent, ending⟩ := exists_end_of_search? found
      have line : d.line ++ ([';'] ++ '\n' :: more) = '\n' :: u ++ (v ++ '\n' :: more) := by
        rw [← List.append_assoc, GenericDeclaration.line, List.cons_append, split]
        simp
      rw [line] at text
      have cut : header (printed name.text (((ok ++ d :: rest) ++ [last]).map GenericDeclaration.generic)) =
          opening name [' '] [' '] ++ (clauseOpening ++ (items ok ++ '\n' :: u)) := by
        have parts : clauseOpening ++ (items ok ++ ('\n' :: u ++ (v ++ '\n' :: more))) =
            clauseOpening ++ (items ok ++ '\n' :: u) ++ (v ++ '\n' :: more) := by simp
        rw [header, stripped]
        rw [text, parts] at masked ⊢
        refine headerOf_opening name (by simp) (by simp) space space (wordEnds_clauseOpening _) masked ?_ ?_
        · exact .append (quiet_clauseOpening _ _) (.append (quiet_end_items keeps _ _) (ending _ _).1)
        · rw [lastOf_append, lastOf_append]
          exact (ending _ _).2
      have quiet : (Pattern.exactly clauseEnd).Quiet none
          (opening name [' '] [' '] ++ (clauseOpening ++ (items ok ++ '\n' :: u))) [] := by
        refine .append (Pattern.quiet_of_closed rfl fun c hc => ?_) (.append
          (Pattern.quiet_of_closed rfl (by decide)) (.append (quiet_clauseEnd_items keeps _ _) ?_))
        · have plain : c ≠ ')' := by
            rcases isWord_of_mem_opening name c hc with word | rfl
            · exact Text.ne_of_isWord word (by decide)
            · decide
          simp [clauseEnd, Pattern.exactly, Pattern.char, Pattern.opens, Pattern.nullable, plain]
        · exact quiet_clauseEnd (by simpa using absent) (.inr Pattern.stops_nil)
      rw [generics, cut, genericsOf, genericClause?_eq_none quiet] at readBack
      simp at readBack

/-- A declaration that ends with a parenthesis is not read back where another one follows it. -/
theorem getLast?_ne_of_readBack : (genericDeclaration d.generic).getLast? ≠ some ')' := by
  have space : ∀ c ∈ [' '], Text.isBlank c = true := by decide
  obtain ⟨more, text⟩ := printed_split name ok d rest last
  have keepsHeader := search?_eq_none_of_readBack keeps readBack
  intro closing
  rw [← getLast?_line] at closing
  obtain ⟨x, truncated⟩ : ∃ x, d.text = x ++ [')'] := by
    rw [GenericDeclaration.line, ← List.cons_append, List.getLast?_append_of_ne_nil _ d.text_ne_nil] at closing
    exact List.getLast?_eq_some_iff.mp closing
  obtain ⟨more', goesOn⟩ : ∃ more', header (printed name.text
      (((ok ++ d :: rest) ++ [last]).map GenericDeclaration.generic)) =
        opening name [' '] [' '] ++ (clauseOpening ++ (items ok ++ (d.line ++ [';'])) ++ more') := by
    have masked := maskStrings_printed name (ok ++ d :: rest) last
    have parts : clauseOpening ++ (items ok ++ (d.line ++ ([';'] ++ '\n' :: more))) =
        clauseOpening ++ (items ok ++ (d.line ++ [';'])) ++ '\n' :: more := by simp
    rw [header, stripComments_printed name (ok ++ d :: rest) last]
    rw [text, parts] at masked ⊢
    exact exists_headerOf_opening name (by simp) (by simp) space space (wordEnds_clauseOpening _) masked
      (.append (quiet_clauseOpening _ _) (.append (quiet_end_items keeps _ _) (quiet_line keepsHeader _ _)))
  have cut : clauseOpening ++ (items ok ++ (d.line ++ [';'])) ++ more' =
      clauseOpening ++ ((items ok ++ ('\n' :: margin ++ x)) ++ (clauseEnd ++ more')) := by
    simp [GenericDeclaration.line, truncated, clauseEnd]
  have absent : ';' ∉ '\n' :: margin ++ x := by
    have plain := d.semicolon_not_mem_line
    rw [GenericDeclaration.line, truncated, ← List.cons_append, ← List.append_assoc, List.mem_append,
      not_or] at plain
    exact plain.1
  have quiet : (Pattern.exactly clauseEnd).Quiet (some '(') (items ok ++ ('\n' :: margin ++ x))
      (clauseEnd ++ more') :=
    .append (quiet_clauseEnd_items keeps _ _) (quiet_clauseEnd absent (.inr (Pattern.stops_cons.mpr (by decide))))
  obtain ⟨rs, after, all, found⟩ := scan_items ok none ('\n' :: margin ++ x)
  obtain ⟨r, others, other, foundOther, declares, differs⟩ := scan_truncated d truncated after
  rw [generics, goesOn, cut, genericsOf, genericClause?_eq_some name quiet] at readBack
  rw [foundOther, ← Pattern.reading_findAll] at found
  have generics : (genericPattern.findAll (items ok ++ ('\n' :: margin ++ x))).map genericOf =
      ok.map GenericDeclaration.generic ++ d.generic :: (rest ++ [last]).map GenericDeclaration.generic := by
    simpa using readBack
  exact differs (eq_of_declares found generics (by rw [List.length_map, all.length_eq]) declares)

end Split

/-- The generics of an entity are read back exactly if each declaration that another one follows keeps
the clause and the header open. -/
theorem generics_printed_iff (name : Name) (ds : List GenericDeclaration) (nonempty : ds ≠ []) :
    generics (printed name.text (ds.map GenericDeclaration.generic)) = ds.map GenericDeclaration.generic ↔
      ∀ d ∈ ds.dropLast, KeepsOpen d.generic := by
  obtain ⟨front, last, rfl⟩ : ∃ front last, ds = front ++ [last] :=
    ⟨_, _, (List.dropLast_append_getLast nonempty).symm⟩
  rw [List.dropLast_concat]
  refine ⟨fun readBack => ?_, generics_printed⟩
  -- the declarations in front of one keep the clause open up to it
  have all : ∀ rest ok, front = ok ++ rest → (∀ d ∈ ok, KeepsOpen d.generic) →
      ∀ d ∈ rest, KeepsOpen d.generic := by
    intro rest
    induction rest with
    | nil => simp
    | cons d rest ih =>
        rintro ok rfl keeps
        have here : KeepsOpen d.generic :=
          ⟨getLast?_ne_of_readBack keeps readBack, by
            rw [genericDeclaration_generic]
            exact search?_eq_none_of_readBack keeps readBack⟩
        have behind := ih (ok ++ [d]) (by simp) (by
          simp only [List.mem_append, List.mem_singleton]
          rintro e (he | rfl)
          · exact keeps e he
          · exact here)
        simp only [List.mem_cons]
        rintro e (rfl | he)
        · exact here
        · exact behind e he
  exact all front [] rfl (by simp)

def byteBounds : Bounds where
  first :=
    { text := "7"
      nonempty := by decide
      plain := by decide
      commentFree := by decide }
  order := .descending
  second :=
    { text := "0"
      nonempty := by decide
      plain := by decide
      commentFree := by decide }

def maskGeneric : GenericDeclaration where
  name := ⟨"mask", by decide, by decide⟩
  type := ⟨"std_logic_vector", by decide, by decide⟩
  bounds := some byteBounds
  default := none

theorem integer_ne_nil : "integer".toList ≠ [] := by decide

theorem integer_word : ∀ c ∈ "integer".toList, Text.isWord c = true := by decide

def depthGeneric : GenericDeclaration where
  name := ⟨"depth", by decide, by decide⟩
  type := ⟨"integer", integer_ne_nil, integer_word⟩
  bounds := none
  default := some
    { text := "2 * (W + 1) - 1"
      nonempty := by decide
      trimmed := by decide
      balanced := by decide
      plain := by decide
      commentFree := by decide }

def bufferName : Name := ⟨"fifo", by decide, by decide⟩

/-- A range at the end is read back. -/
theorem generics_printed_iff_depth :
    [depthGeneric, maskGeneric] ≠ [] ∧
      generics (printed bufferName.text ([depthGeneric, maskGeneric].map GenericDeclaration.generic)) =
        [depthGeneric, maskGeneric].map GenericDeclaration.generic :=
  ⟨List.cons_ne_nil _ _,
    (generics_printed_iff bufferName [depthGeneric, maskGeneric] (List.cons_ne_nil _ _)).mpr (by decide)⟩

/-- A range in front of another declaration is not. -/
theorem generics_printed_mask :
    generics (printed bufferName.text ([maskGeneric, depthGeneric].map GenericDeclaration.generic)) ≠
      [maskGeneric, depthGeneric].map GenericDeclaration.generic := by
  decide

end Pinout.Vhdl
