import Pinout.Proofs.Verilog.ParameterScan
import Pinout.Proofs.Verilog.PortScan

/-! # Reading headers back

Whatever its layout, the parser reads from an ANSI header the interface that the header declares.
-/

namespace Pinout.Verilog

open Token

variable {h : AnsiHeader} {gaps : List Text}

/-- The first keyword of a header is the one that its name stands behind. -/
theorem takes_modulePattern {before : Option Char} (outside : before.any Text.isWord = false) (name : Name)
    {g s : Text} (apart : g ≠ []) (blank : ∀ c ∈ g, Text.isBlank c = true)
    (wordEnds : Pattern.Stops Text.isWord s) :
    modulePattern.Takes before ("module".toList ++ g ++ name.text) [(1, name.text)] s := by
  have edge : Pattern.boundary.Takes before [] [] ("module".toList ++ (g ++ (name.text ++ s))) :=
    .boundary (Pattern.isEdge_front outside (by decide))
  have keyword := (edge.append Pattern.takes_exactly).gap apart blank (name.stops_blank s)
  exact keyword.append ((Pattern.takes_atLeastOne name.nonempty name.word wordEnds).group 1)

theorem unitName_layOut (fits : Fits h.tokens gaps) : unitName (layOut h.tokens gaps) = h.name.text := by
  have stripped := stripComments_layOut fits
  obtain ⟨g₁, gaps, rfl, fits₁, fits⟩ := fits.cons
  obtain ⟨g₂, gaps, rfl, fits₂, fits⟩ := fits.cons
  have leads : Leads (h.parameterTokens ++ mark ['('] :: h.portTokens) := by
    rw [AnsiHeader.parameterTokens]
    split
    · exact .mark _ (by decide) (by decide)
    · exact .mark _ (by decide) (by decide)
  have outside : (none : Option Char).any Text.isWord = false := rfl
  have taken := takes_modulePattern outside h.name (fits₁.apart rfl rfl) fits₁.blank
    (leads.stops_word fits fits₂ rfl)
  obtain ⟨found, search, -, -, reading⟩ := Pattern.find?_of_takes taken 0
  have text : layOut h.tokens (g₁ :: g₂ :: gaps) = "module".toList ++ g₁ ++ h.name.text ++
      (g₂ ++ layOut (h.parameterTokens ++ mark ['('] :: h.portTokens) gaps) := by
    simp [AnsiHeader.tokens, layOut, Token.word]
  rw [unitName, stripped, text, Pattern.search?, Cursor.start, search]
  change found.group 1 = _
  rw [← Match.group_reading, reading]
  rfl

/-- Reading a laid out header gives the interface that it declares. -/
theorem interface_layOut_header (h : AnsiHeader) (gaps : List Text) (fits : Fits h.tokens gaps) :
    Verilog.interface (layOut h.tokens gaps) = .ok h.interface := by
  rw [Verilog.interface, ports_layOut fits, generics_layOut fits, unitName_layOut fits]
  rfl

/-- A header whose names look like keywords. -/
def keywordHeader : AnsiHeader where
  name := ⟨"module", by decide, by decide⟩
  parameters := [
    { name := ⟨"integer", by decide, by decide⟩
      value := "f(2 * (W + 1))"
      nonempty := by decide
      trimmed := by decide
      unbroken := by decide
      balanced := by decide
      commentFree := by decide
      noDirection := by decide },
    { name := ⟨"parameter", by decide, by decide⟩
      value := "(8)"
      nonempty := by decide
      trimmed := by decide
      unbroken := by decide
      balanced := by decide
      commentFree := by decide
      noDirection := by decide }]
  ports := [
    { direction := .input
      keyword := ⟨"INPUT", by decide⟩
      netType := none
      signed := none
      range := none
      name := ⟨"signed", by decide, by decide⟩ },
    { direction := .output
      keyword := ⟨"output", by decide⟩
      netType := some ⟨.reg, ⟨"Reg", by decide⟩⟩
      signed := some ⟨"signed", by decide⟩
      range := some
        { text := "a ? 7 : 3 :0"
          colon := by decide
          unbracketed := by decide
          commentFree := by decide
          noParameter := by decide }
      name := ⟨"reg", by decide, by decide⟩ }]

def keywordGaps : List Text :=
  [" ", "", "", "", " ", "", "", "\n", "", " ", "", "", "", "\t", "", " ", "", "\n", " ", " ", "", "", " ",
    "", "", "", ""].map String.toList

theorem interface_layOut_keywordHeader :
    Fits keywordHeader.tokens keywordGaps ∧
      Verilog.interface (layOut keywordHeader.tokens keywordGaps) = .ok keywordHeader.interface :=
  ⟨by decide, interface_layOut_header keywordHeader keywordGaps (by decide)⟩

end Pinout.Verilog
