import Pinout.Proofs.Layout.Read
import Pinout.Proofs.Vhdl.PortClause

/-! # Reading ports

The port pattern takes a port of a port clause whole, with its range if there is one.
-/

namespace Pinout.Vhdl

open Token

variable {before : Option Char} {t : Text} {tokens behind : List Token} {gaps : List Text} {c : Char}

def modes : Pattern :=
  .keyword "inout" <|> .keyword "in" <|> .keyword "out"

def bitTypes : Pattern :=
  .keyword "std_" ++ .optional (.keyword "u") ++ .keyword "logic"

def rangePart : Pattern :=
  .blanks ++ .char '(' ++ .group 5 (.few (· != '\n')) ++ .char ')'

def typeTail : Pattern :=
  .group 3 (bitTypes ++ .optional (.keyword "_vector")) ++ (.boundary ++ .optional (.group 4 rangePart))

def modeTail : Pattern :=
  .group 2 modes ++ (.gap ++ typeTail)

def markTail : Pattern :=
  .char ':' ++ (.blanks ++ modeTail)

theorem readings_portPattern (before : Option Char) (t : Text) :
    portPattern.readings before t = (.group 1 .word ++ (.blanks ++ markTail) : Pattern).readings before t := by
  simp only [portPattern, Pattern.readings_append_assoc]
  rfl

theorem portPattern_skipsBlanks : portPattern.SkipsBlanks where
  reads := rfl
  closed _ := Text.forall_blank (portPattern.opens · = false) (by decide +kernel)

theorem takes_modes {d : Direction} (s : Spelling (modeKeyword d)) (ends : Pattern.Stops Text.isWord t) :
    modes.Takes before s.text [] t := by
  cases d with
  | input =>
      refine .right (Pattern.refuses_keyword_of_short (by decide) ends ?_)
        (.left (Pattern.takes_keyword s.spells))
      rw [← s.spells.length_eq]
      decide
  | output =>
      exact .right (s.refuses (by decide) (by decide) (by decide))
        (.right (s.refuses (by decide) (by decide) (by decide)) (Pattern.takes_keyword s.spells))
  | inout => exact .left (Pattern.takes_keyword s.spells)

theorem takes_bitTypes {bits : BitType} (s : Spelling bits.keyword) : bitTypes.Takes before s.text [] t := by
  cases bits with
  | resolved =>
      obtain ⟨x, y, text⟩ := Spelling.exists_append "std_" "logic" s
      have nothing : (Pattern.optional (.keyword "u")).Takes (lastOf before x.text) [] [] (y.text ++ t) :=
        .nothing (y.refuses (by decide) (by decide) (by decide))
      have taken := (Pattern.takes_keyword x.spells).append
        (nothing.append (Pattern.takes_keyword y.spells))
      rw [text, bitTypes, Pattern.Takes.assoc]
      exact taken
  | unresolved =>
      obtain ⟨x, yz, text⟩ := Spelling.exists_append "std_" "ulogic" s
      obtain ⟨y, z, text'⟩ := Spelling.exists_append "u" "logic" yz
      have letter : (Pattern.optional (.keyword "u")).Takes (lastOf before x.text) y.text [] (z.text ++ t) :=
        .left (Pattern.takes_keyword y.spells)
      have taken := (Pattern.takes_keyword x.spells).append
        (letter.append (Pattern.takes_keyword z.spells))
      rw [text, text', bitTypes, Pattern.Takes.assoc]
      exact taken

theorem takes_scalar {bits : BitType} (s : Spelling bits.keyword) (ends : Pattern.Stops Text.isWord t) :
    (bitTypes ++ .optional (.keyword "_vector")).Takes before s.text [] t := by
  have nothing : (Pattern.optional (.keyword "_vector")).Takes (lastOf before s.text) [] [] t :=
    .nothing (Pattern.refuses_keyword (by decide) (by decide) ends)
  have taken := Pattern.Takes.append (y := []) (takes_bitTypes s) nothing
  rwa [List.append_nil] at taken

theorem takes_vector {bits : BitType} (s : Spelling bits.vectorKeyword) :
    (bitTypes ++ .optional (.keyword "_vector")).Takes before s.text [] t := by
  obtain ⟨x, y, text⟩ := Spelling.exists_append bits.keyword vectorSuffix s
  have suffix : (Pattern.optional (.keyword "_vector")).Takes (lastOf before x.text) y.text [] t :=
    .left (Pattern.takes_keyword y.spells)
  rw [text]
  exact (takes_bitTypes x).append suffix

theorem takes_type (type : PortType) (ends : Pattern.Stops Text.isWord t) :
    (bitTypes ++ .optional (.keyword "_vector")).Takes before type.text [] t := by
  cases type with
  | scalar bits s => exact takes_scalar s ends
  | vector bits s range => exact takes_vector s

/-- A range is read up to the first parenthesis that closes. -/
theorem takes_rangePart {g m s : Text} (blank : ∀ c ∈ g, Text.isBlank c = true)
    (plain : ∀ c ∈ m, c ≠ ')' ∧ c ≠ '\n') :
    rangePart.Takes before (g ++ (['('] ++ (m ++ [')']))) [(5, m)] s := by
  have visible : Pattern.Stops Text.isBlank ((['('] ++ (m ++ [')'])) ++ s) :=
    Pattern.stops_cons.mpr (by decide)
  rw [rangePart, Pattern.Takes.assoc, Pattern.Takes.assoc]
  refine (Pattern.takes_blanks blank visible).append (Pattern.takes_char.append
    (Pattern.Takes.few (fun c hc => by simpa using (plain c hc).2) (fun u v split more => ?_)
      Pattern.takes_char))
  obtain ⟨d, v, rfl⟩ := List.exists_cons_of_ne_nil more
  refine Pattern.refuses_of_stops rfl (Pattern.stops_cons.mpr ?_)
  simpa [Pattern.char, Pattern.opens] using (plain d (by simp [split])).1

theorem refuses_rangePart {g s : Text} (blank : ∀ c ∈ g, Text.isBlank c = true) (visible : Text.isBlank c = false)
    (h : c ≠ '(') : rangePart.Refuses before (g ++ c :: s) := by
  rw [rangePart, Pattern.refuses_append_assoc, Pattern.refuses_append_assoc]
  refine Pattern.refuses_many_run blank (Pattern.stops_cons.mpr visible) rfl
    (fun _ => Text.forall_blank (fun c => (Pattern.char '(' ++ _).opens c = false) (by decide)) ?_
  have opening : (Pattern.char '(').Refuses (lastOf before g) (c :: s) :=
    Pattern.refuses_of_stops rfl (Pattern.stops_cons.mpr (by simp [Pattern.char, Pattern.opens, h]))
  exact opening.append

/-- What the pattern keeps of the type. -/
def PortType.Keeps (type : PortType) (kept : List (Nat × Text)) : Prop :=
  match type with
  | .vector _ _ (some range) => ∃ whole x, x ≠ [] ∧ Text.trim x = range.text ∧
      kept = [(4, whole), (5, x), (3, type.text)]
  | _ => kept = [(3, type.text)]

/-- What the pattern keeps of a port. -/
def PortDeclaration.Keeps (d : PortDeclaration) (kept : List (Nat × Text)) : Prop :=
  ∃ type, d.type.Keeps type ∧ kept = type ++ [(2, d.mode.text)] ++ [(1, d.name.text)]

def EndsPort (c : Char) : Prop :=
  EndsPart ';' c

section Port

variable (ends : EndsPort c)
include ends

theorem EndsPort.refuses_rangePart {gap : Text} (blank : ∀ c ∈ gap, Text.isBlank c = true)
    (fits : Fits (mark [c] :: behind) gaps) :
    rangePart.Refuses before (gap ++ layOut (mark [c] :: behind) gaps) := by
  obtain ⟨_, _, rfl, -, -⟩ := fits.cons
  rcases ends with rfl | rfl
  · exact Vhdl.refuses_rangePart blank (by decide) (by decide)
  · exact Vhdl.refuses_rangePart blank (by decide) (by decide)

theorem read_plainType (type : PortType) :
    Read typeTail [Token.word type.text] (mark [c] :: behind) (· = [(3, type.text)]) := by
  intro gaps fits
  obtain ⟨gap, gaps, rfl, gapFits, fits⟩ := fits.cons
  have wordEnds := (ends.leads rfl rfl behind).stops_word fits gapFits rfl
  refine ⟨type.text, [(3, type.text)], gap, gaps, rfl, gapFits.blank, fits, rfl, fun before => ?_⟩
  have inside : (lastOf before type.text).any Text.isWord = true :=
    Pattern.any_lastOf type.text_ne_nil type.word
  have edge : Pattern.boundary.Takes (lastOf before type.text) [] [] (gap ++ layOut (mark [c] :: behind) gaps) :=
    .boundary (Pattern.isEdge_of_word inside wordEnds)
  have unranged : (Pattern.optional (.group 4 rangePart)).Takes (lastOf before type.text) [] []
      (gap ++ layOut (mark [c] :: behind) gaps) := .nothing ((ends.refuses_rangePart gapFits.blank fits).group 4)
  have nothing := Pattern.Takes.append (y := []) edge unranged
  have taken := Pattern.Takes.append (y := []) ((takes_type type wordEnds).group 3) nothing
  rwa [List.append_nil] at taken

omit ends in
theorem read_rangedType (type : PortType) (range : Range) :
    Read typeTail [Token.word type.text, { mark ['('] with isInline := true },
      { mark range.text with isInline := true }, mark [')']] (mark [c] :: behind)
      fun kept => ∃ whole x, x ≠ [] ∧ Text.trim x = range.text ∧
        kept = [(4, whole), (5, x), (3, type.text)] := by
  intro gaps fits
  obtain ⟨g₁, gaps, rfl, fits₁, fits⟩ := fits.cons
  obtain ⟨g₂, gaps, rfl, fits₂, fits⟩ := fits.cons
  obtain ⟨g₃, gaps, rfl, fits₃, fits⟩ := fits.cons
  obtain ⟨g₄, gaps, rfl, fits₄, fits⟩ := fits.cons
  have plain : ∀ c ∈ g₂ ++ range.text ++ g₃, c ≠ ')' ∧ c ≠ '\n' := by
    have gap : ∀ g : Text, (∀ c ∈ g, Text.isBlank c = true) → '\n' ∉ g → ∀ c ∈ g, c ≠ ')' ∧ c ≠ '\n' := by
      intro g blank inline c hc
      refine ⟨Text.forall_blank (· ≠ ')') (by decide) (blank c hc), ?_⟩
      rintro rfl
      exact inline hc
    simp only [List.mem_append]
    rintro c ((h | h) | h)
    · exact gap g₂ fits₂.blank (fits₂.inline rfl) c h
    · exact ⟨(range.plain c h).2.1, (range.plain c h).2.2.1⟩
    · exact gap g₃ fits₃.blank (fits₃.inline rfl) c h
  have wordEnds : Pattern.Stops Text.isWord ((g₁ ++ (['('] ++ (g₂ ++ range.text ++ g₃ ++ [')']))) ++
      (g₄ ++ layOut (mark [c] :: behind) gaps)) := by
    rw [List.append_assoc]
    exact Pattern.stops_gap fits₁.blank (.inr (Pattern.stops_cons.mpr (by decide)))
  have trimmed : Text.trim (g₂ ++ range.text ++ g₃) = range.text := by
    rw [List.append_assoc, Text.trim_blanks_append fits₂.blank, Text.trim_append_blanks fits₃.blank,
      range.trimmed]
  refine ⟨type.text ++ (g₁ ++ (['('] ++ (g₂ ++ range.text ++ g₃ ++ [')']))), _, g₄, gaps,
    by simp [layOut, mark, Token.word], fits₄.blank, fits,
    ⟨g₁ ++ (['('] ++ (g₂ ++ range.text ++ g₃ ++ [')'])), g₂ ++ range.text ++ g₃,
      by simp [range.nonempty], trimmed, rfl⟩, fun before => ?_⟩
  have inside : (lastOf before type.text).any Text.isWord = true :=
    Pattern.any_lastOf type.text_ne_nil type.word
  have ranged : (.boundary ++ .optional (.group 4 rangePart) : Pattern).Takes (lastOf before type.text)
      (g₁ ++ (['('] ++ (g₂ ++ range.text ++ g₃ ++ [')']))) _ (g₄ ++ layOut (mark [c] :: behind) gaps) :=
    .append (x := []) (.boundary (Pattern.isEdge_of_word inside wordEnds))
      (.left ((takes_rangePart fits₁.blank plain).group 4))
  exact ((takes_type type wordEnds).group 3).append ranged

theorem read_typeTail (type : PortType) : Read typeTail type.tokens (mark [c] :: behind) type.Keeps := by
  cases type with
  | scalar bits s => exact read_plainType ends (.scalar bits s)
  | vector bits s range =>
      cases range with
      | none => exact read_plainType ends (.vector bits s none)
      | some range => exact read_rangedType (.vector bits s (some range)) range

theorem read_portPattern (d : PortDeclaration) :
    Read portPattern d.tokens (mark [c] :: behind) d.Keeps := by
  obtain ⟨rest, tokens⟩ := d.type.exists_tokens
  have leadsType : Leads (d.type.tokens ++ mark [c] :: behind) := by
    rw [tokens]
    exact .word _ d.type.text_ne_nil d.type.word
  have leadsMode : Leads ((Token.word d.mode.text :: d.type.tokens) ++ mark [c] :: behind) :=
    .word _ (d.mode.ne_nil (by cases d.direction <;> decide))
      (d.mode.word (isKeyLetter_of_mem_clauseKeywords (mem_clauseKeywords_mode d.direction)))
  have leadsMark : Leads ((mark [':'] :: Token.word d.mode.text :: d.type.tokens) ++ mark [c] :: behind) :=
    .mark _ (by decide) (by decide)
  have mode : Read modeTail (Token.word d.mode.text :: d.type.tokens) (mark [c] :: behind) _ :=
    .assoc (.cons leadsType (fun before gap s gapFits stops wordEnds =>
      ((takes_modes d.mode (wordEnds rfl)).group 2).gap (gapFits.apart rfl (by rw [tokens]; rfl))
        gapFits.blank stops) (read_typeTail ends d.type))
  have marked : Read markTail (mark [':'] :: Token.word d.mode.text :: d.type.tokens) (mark [c] :: behind) _ :=
    .assoc (.cons leadsMode (fun before gap s gapFits stops _ =>
      Pattern.takes_char.blanks gapFits.blank stops) mode)
  have named : Read (.group 1 .word ++ (.blanks ++ markTail)) d.tokens (mark [c] :: behind) _ :=
    .assoc (.cons leadsMark (fun before gap s gapFits stops wordEnds =>
      ((Pattern.takes_atLeastOne d.name.nonempty d.name.word (wordEnds rfl)).group 1).blanks gapFits.blank
        stops) marked)
  refine (named.congr readings_portPattern).imp ?_
  rintro _ ⟨_, ⟨_, ⟨type, keeps, rfl⟩, rfl⟩, rfl⟩
  exact ⟨type, keeps, by simp⟩

end Port

end Pinout.Vhdl
