import Pinout.Proofs.Extraction
import Pinout.Proofs.Layout.Scan
import Pinout.Proofs.Vhdl.HeaderScan
import Pinout.Proofs.Vhdl.PortReading
import Pinout.Proofs.Vhdl.Uncommented

/-! # Reading port clauses back

Whatever its layout, the parser reads from an entity the interface that the entity declares.
-/

namespace Pinout.Vhdl

open Token

variable {w : Text} {behind : List Token} {gaps : List Text} {e : PortClause}

theorem any_lastOf_clause (fits : Fits (e.clauseTokens ++ behind) gaps) (before : Option Char) :
    (lastOf before (layOut e.clauseTokens gaps)).any Text.isWord = false := by
  have split : e.clauseTokens = (Token.word "port" :: mark ['('] ::
      (separated [';'] (e.ports.map PortDeclaration.tokens) ++ [mark [')']])) ++ [mark [';']] := by
    simp [PortClause.clauseTokens]
  rw [split] at fits ⊢
  rw [List.append_assoc] at fits
  exact any_lastOf_mark (by decide) fits

section Header

variable (fits : Fits e.tokens gaps)
include fits

theorem header_layOut :
    header (layOut e.tokens gaps) = layOut (e.openingTokens ++ e.clauseTokens) gaps ∧
      unitName (layOut e.tokens gaps) = e.name.text := by
  have stripped := stripComments_layOut fits
  have masked := maskStrings_layOut fits
  obtain ⟨g₁, gaps, rfl, fits₁, fits⟩ := fits.cons
  obtain ⟨g₂, gaps, rfl, fits₂, fits⟩ := fits.cons
  obtain ⟨g₃, gaps, rfl, fits₃, fits⟩ := fits.cons
  change Fits (e.clauseTokens ++ e.endTokens) gaps at fits
  have apart₁ := fits₁.apart rfl rfl
  have apart₂ := fits₂.apart rfl rfl
  have text : layOut e.tokens (g₁ :: g₂ :: g₃ :: gaps) = opening e.name g₁ g₂ ++
      (g₃ ++ layOut e.clauseTokens gaps ++ layOut e.endTokens (gaps.drop e.clauseTokens.length)) := by
    rw [List.append_assoc, ← layOut_append]
    simp only [PortClause.tokens, PortClause.openingTokens, List.cons_append, List.nil_append, layOut,
      opening, List.append_assoc]
    rfl
  have front : layOut (e.openingTokens ++ e.clauseTokens) (g₁ :: g₂ :: g₃ :: gaps) =
      opening e.name g₁ g₂ ++ (g₃ ++ layOut e.clauseTokens gaps) := by
    simp only [PortClause.openingTokens, List.cons_append, List.nil_append, layOut, opening,
      List.append_assoc]
    rfl
  have wordEnds : Pattern.Stops Text.isWord (g₃ ++ layOut e.clauseTokens gaps ++
      layOut e.endTokens (gaps.drop e.clauseTokens.length)) := by
    rw [List.append_assoc]
    exact Pattern.stops_gap fits₃.blank (.inl (fits₃.apart rfl rfl))
  have quiet : entityEndPattern.Quiet (some 's') (g₃ ++ layOut e.clauseTokens gaps)
      (layOut e.endTokens (gaps.drop e.clauseTokens.length)) :=
    (entityEndPattern_skipsBlanks.quiet fits₃.blank).append (e.unread_end e.endTokens gaps fits _)
  have ends : ¬ entityEndPattern.Refuses (lastOf (some 's') (g₃ ++ layOut e.clauseTokens gaps))
      (layOut e.endTokens (gaps.drop e.clauseTokens.length)) := by
    have outside := any_lastOf_clause fits (lastOf (some 's') g₃)
    have fitsEnd : Fits e.endTokens (gaps.drop e.clauseTokens.length) := fits.drop
    obtain ⟨h₁, _, dropped, fits₁, rest⟩ := fitsEnd.cons
    obtain ⟨h₂, _, rfl, fits₂, rest⟩ := rest.cons
    obtain ⟨h₃, _, rfl, -, rest⟩ := rest.cons
    rw [dropped, lastOf_append]
    exact not_refuses_end outside (fits₁.apart rfl rfl) fits₁.blank fits₂.blank
  rw [header, stripped, front]
  rw [text] at masked stripped ⊢
  exact ⟨headerOf_opening e.name apart₁ apart₂ fits₁.blank fits₂.blank wordEnds masked quiet ends,
    unitName_opening e.name apart₁ apart₂ fits₁.blank fits₂.blank wordEnds stripped⟩

theorem fits_header : Fits (e.openingTokens ++ e.clauseTokens)
    (gaps.take (e.openingTokens ++ e.clauseTokens).length) := by
  rw [PortClause.tokens, ← List.append_assoc] at fits
  exact fits.take

end Header

theorem unread_port_mark {c : Char} (closed : portPattern.opens c = false) (behind : List Token) :
    Unread portPattern [mark [c]] behind :=
  unread_of_closed portPattern_skipsBlanks fun d hd => by rwa [List.mem_singleton.mp hd]

/-- A word is no port, nor is a part of it, if no colon follows it. -/
theorem unread_port_word (word : ∀ c ∈ w, Text.isWord c = true) (leads : Leads behind)
    (closed : ∀ gaps, Fits behind gaps → Pattern.Stops (· == ':') (layOut behind gaps)) :
    Unread portPattern [Token.word w] behind := by
  refine unread_of_quiet portPattern_skipsBlanks fun before gap gaps gapFits fits =>
    Pattern.quiet_of_forall fun y c z split => ?_
  have wordEnds := leads.stops_word fits gapFits rfl
  rw [Pattern.Refuses, readings_portPattern]
  change Pattern.Refuses _ _ ((c :: z) ++ (gap ++ layOut behind gaps))
  rw [Pattern.refuses_group_append]
  refine Pattern.refuses_atLeastOne_run (fun d hd => word d ?_) wordEnds rfl (fun d isWord => ?_) ?_
  · change w = _ at split
    rw [split]
    exact List.mem_append_right y hd
  · have plain : d ≠ ':' := Text.ne_of_isWord isWord (by decide)
    simp [Pattern.blanks, markTail, Pattern.char, Pattern.opens, Pattern.nullable,
      Text.not_isBlank_of_isWord isWord, plain]
  · refine Pattern.refuses_many_run gapFits.blank (leads.stops_blank fits) rfl
      (fun _ => Text.forall_blank (fun c => markTail.opens c = false) (by decide)) ?_
    refine Pattern.refuses_of_stops rfl fun c hc => ?_
    have plain := closed gaps fits c hc
    simpa [markTail, Pattern.char, Pattern.opens, Pattern.nullable] using plain

theorem scan_portPattern (fits : Fits (e.openingTokens ++ e.clauseTokens) gaps) :
    List.Forall₂ (fun d r => d.Keeps r.kept) e.ports
      (portPattern.scan none (layOut (e.openingTokens ++ e.clauseTokens) gaps)) := by
  have opening : ∀ behind, Unread portPattern (e.openingTokens ++ [Token.word "port"])
      (mark ['('] :: behind) := by
    have next : ∀ w rest gaps, w ≠ [] → (∀ c ∈ w, Text.isWord c = true) →
        Fits (Token.word w :: rest) gaps → Pattern.Stops (· == ':') (layOut (Token.word w :: rest) gaps) := by
      intro w rest gaps nonempty word fits
      obtain ⟨_, _, rfl, -, -⟩ := fits.cons
      refine Pattern.stops_append nonempty fun c hc => ?_
      have isWord := word c (List.mem_of_mem_head? hc)
      by_contra colon
      rw [Bool.not_eq_false, beq_iff_eq] at colon
      exact absurd isWord (by rw [colon]; decide)
    intro behind
    refine .cons (unread_port_word (by decide) (.word _ e.name.nonempty e.name.word) ?_) ?_
    · exact fun gaps => next _ _ gaps e.name.nonempty e.name.word
    refine .cons (unread_port_word e.name.word (.word _ (by decide) (by decide)) ?_) ?_
    · exact fun gaps => next _ _ gaps (by decide) (by decide)
    refine .cons (unread_port_word (by decide) (.word _ (by decide) (by decide)) ?_) ?_
    · exact fun gaps => next _ _ gaps (by decide) (by decide)
    refine unread_port_word (by decide) (.mark _ (by decide) (by decide)) fun gaps fits => ?_
    obtain ⟨_, _, rfl, -, -⟩ := fits.cons
    exact Pattern.stops_cons.mpr (by decide)
  have scans : ∀ d ∈ e.ports, ∀ c behind, c = ';' ∨ c = ')' → Scans portPattern d.tokens (mark [c] :: behind)
      fun rs => ∃ r, d.Keeps r.kept ∧ rs = [r] := fun d _ c behind ends =>
    (read_portPattern ends d).scans portPattern_skipsBlanks (fun _ _ _ _ _ => rfl)
      ⟨_, _, rfl, d.name.nonempty, d.name.word⟩ fun next => by cases next
  have text : e.openingTokens ++ e.clauseTokens = (e.openingTokens ++ [Token.word "port"]) ++ mark ['('] ::
      (separated [';'] (e.ports.map PortDeclaration.tokens) ++ mark [')'] :: [mark [';']]) := by
    simp [PortClause.clauseTokens]
  rw [text] at fits ⊢
  obtain ⟨parts, all, found⟩ := scan_list portPattern_skipsBlanks (by decide) (by decide) (by decide) (by decide)
    e.ports scans opening (.cons (unread_port_mark (by decide) _) (unread_port_mark (by decide) _)) fits
  rw [found]
  exact flatten_of_read all

theorem ofKeyword_mode {d : Direction} (s : Spelling (modeKeyword d)) :
    Direction.ofKeyword s.text = .ok d := by
  have key := isKeyLetter_of_mem_clauseKeywords (mem_clauseKeywords_mode d)
  rw [Direction.ofKeyword, Text.trim_of_word (s.word key), s.toLower key]
  cases d <;> rfl

theorem portWidth_scalar {bits : BitType} (s : Spelling bits.keyword) (range : Option Text) :
    portWidth s.text range = some scalarWidth := by
  have lower := s.toLower (isKeyLetter_of_mem_clauseKeywords (mem_clauseKeywords_scalar bits))
  unfold portWidth
  rw [lower, if_neg]
  cases bits <;> decide

theorem portWidth_vector {bits : BitType} (s : Spelling bits.vectorKeyword) {range : Option Text}
    (nonempty : range ≠ some []) : portWidth s.text range = range.map Text.trim := by
  have lower := s.toLower (isKeyLetter_of_mem_clauseKeywords (mem_clauseKeywords_vector bits))
  unfold portWidth
  rw [lower, if_pos (by cases bits <;> decide)]
  match range with
  | none => rfl
  | some [] => exact absurd rfl nonempty
  | some (c :: rest) => rfl

theorem PortType.Keeps.lookup {type : PortType} {kept : List (Nat × Text)} (h : type.Keeps kept) :
    kept.lookup 1 = none ∧ kept.lookup 2 = none ∧ kept.lookup 3 = some type.text ∧
      portWidth type.text (kept.lookup 5) = type.width := by
  cases type with
  | scalar bits s =>
      obtain rfl := h
      exact ⟨rfl, rfl, rfl, portWidth_scalar s none⟩
  | vector bits s range =>
      cases range with
      | none =>
          obtain rfl := h
          exact ⟨rfl, rfl, rfl, portWidth_vector s nofun⟩
      | some range =>
          obtain ⟨whole, x, nonempty, trimmed, rfl⟩ := h
          refine ⟨rfl, rfl, rfl, ?_⟩
          change portWidth s.text (some x) = some range.text
          rw [portWidth_vector s (by simp [nonempty]), Option.map_some, trimmed]

theorem PortDeclaration.portOf_eq {found : Match} {d : PortDeclaration}
    (keeps : d.Keeps found.reading.kept) : portOf found = .ok d.port := by
  obtain ⟨kept, keepsType, all⟩ := keeps
  obtain ⟨noName, noMode, type, width⟩ := keepsType.lookup
  have lookup : ∀ index, found.group? index =
      ((kept.lookup index).or ([(2, d.mode.text)].lookup index)).or ([(1, d.name.text)].lookup index) := by
    intro index
    rw [← Match.group?_reading, Reading.group?, all, List.lookup_append, List.lookup_append]
  have name : found.group 1 = d.name.text := by
    rw [Match.group, lookup, noName]
    rfl
  have mode : found.group 2 = d.mode.text := by
    rw [Match.group, lookup, noMode]
    rfl
  have typeText : found.group 3 = d.type.text := by
    rw [Match.group, lookup, type]
    rfl
  have range : found.group? 5 = kept.lookup 5 := by
    rw [lookup]
    cases kept.lookup 5 <;> rfl
  rw [portOf, mode, ofKeyword_mode, name, typeText, range, width]
  rfl

theorem ports_layOut (fits : Fits e.tokens gaps) :
    ports (layOut e.tokens gaps) = .ok (e.ports.map PortDeclaration.port) := by
  have scanned := scan_portPattern (fits_header fits)
  rw [layOut_take, ← Pattern.reading_findAll, List.forall₂_map_right_iff] at scanned
  rw [ports, (header_layOut fits).1]
  exact Extraction.mapM_eq_ok (scanned.imp fun _ _ => PortDeclaration.portOf_eq)

theorem generics_layOut (fits : Fits e.tokens gaps) : generics (layOut e.tokens gaps) = [] := by
  have quiet := e.unread_generic.quiet (fits_header fits) none
  rw [layOut_take] at quiet
  have missing : genericBlockPattern.search? (layOut (e.openingTokens ++ e.clauseTokens) gaps) = none :=
    Pattern.find?_eq_none_of_quiet rfl (quiet.imp fun _ _ => refuses_genericBlockPattern) 0
  rw [generics, (header_layOut fits).1, genericsOf, genericClause?, missing]
  rfl

/-- Reading a laid out entity gives the interface that it declares. -/
theorem interface_layOut_clause (e : PortClause) (gaps : List Text) (fits : Fits e.tokens gaps) :
    Vhdl.interface (layOut e.tokens gaps) = .ok e.interface := by
  rw [Vhdl.interface, ports_layOut fits, generics_layOut fits, (header_layOut fits).2]
  rfl

/-- An entity whose names look like keywords. -/
def keywordClause : PortClause where
  name := ⟨"is", by decide, by decide⟩
  ports := [
    { name := ⟨"end", by decide, by decide⟩
      direction := .input
      mode := ⟨"IN", by decide⟩
      type := .scalar .resolved ⟨"std_logic", by decide⟩ },
    { name := ⟨"generic", by decide, by decide⟩
      direction := .output
      mode := ⟨"out", by decide⟩
      type := .vector .unresolved ⟨"Std_ULogic_Vector", by decide⟩ none },
    { name := ⟨"port", by decide, by decide⟩
      direction := .inout
      mode := ⟨"InOut", by decide⟩
      type := .vector .resolved ⟨"std_logic_vector", by decide⟩ (some
        { text := "N - 1 downto 0"
          nonempty := by decide
          trimmed := by decide
          plain := by decide
          commentFree := by decide }) }]

def clauseGaps : List Text :=
  [" ", "\n", "\t", "", "", "", "", " ", "", "\n  ", " ", "", " ", "", "\n", "", "", " ", "\n", " ", "", "",
    "", "\n", " ", "", "\n"].map String.toList

theorem interface_layOut_keywordClause :
    Fits keywordClause.tokens clauseGaps ∧
      Vhdl.interface (layOut keywordClause.tokens clauseGaps) = .ok keywordClause.interface :=
  ⟨by decide, interface_layOut_clause keywordClause clauseGaps (by decide)⟩

end Pinout.Vhdl
