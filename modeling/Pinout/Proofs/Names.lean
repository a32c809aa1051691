import Pinout.Proofs.Comments
import Pinout.Proofs.Pattern.Names
import Pinout.Proofs.Verilog.TestbenchReadBack
import Pinout.Proofs.Vhdl.Extracted
import Pinout.Proofs.Vhdl.GenericReading
import Pinout.Proofs.Vhdl.PortReading
import Pinout.Proofs.Vhdl.Surroundings

/-! # Names that are reported

Whatever the source is, every name that is reported of a port, a parameter or a unit stands in the scanned
text as a whole word, and the names of the ports and those of the parameters stand there in their order,
each at a place of its own. No comment is left in the scanned text.
-/

namespace Pinout

open Pattern (KeepsApart EndsApart endsApart_boundary endsApart_gap endsApart_char keepsApart_blanks)
open Text (StandsAt StandInOrder WordsIn)

variable {source t clause : Text}

namespace Verilog

theorem modulePattern_namesWords : modulePattern.NamesWords 1 :=
  modulePattern_ledBy.begins.namesWords_last rfl endsApart_gap.append_left.keepsApart

theorem portPattern_namesWords : portPattern.NamesWords 4 := by
  have edge : ∀ p : Pattern, (p ++ .boundary ++ .blanks).EndsApart := fun p =>
    endsApart_boundary.append_left.append keepsApart_blanks
  have range : (.char '[' ++ .group 3 (unbracketed ++ .char ':' ++ unbracketed) ++ .char ']' ++ .blanks : Pattern).EndsApart :=
    (endsApart_char (by decide)).append_left.append keepsApart_blanks
  refine portPattern_ledBy.begins.namesWords_last rfl ?_
  exact ((((edge _).append (edge _).keepsApart.optional).append (edge _).keepsApart.optional).append
      range.keepsApart.optional).keepsApart

/-- What may stand in front of the name of a parameter ends with a blank or a bracket. -/
theorem parameterPattern_namesWords : parameterPattern.NamesWords 1 := by
  have range : (.char '[' ++ unbracketed ++ .char ']' ++ .blanks : Pattern).EndsApart :=
    (endsApart_char (by decide)).append_left.append keepsApart_blanks
  have types : parameterType.EndsApart := endsApart_gap.append_left
  have keeps : (.boundary ++ .exactly "parameter" ++ .gap ++ .repeated parameterType ++
      .optional (.char '[' ++ unbracketed ++ .char ']' ++ .blanks) : Pattern).EndsApart :=
    (endsApart_gap.append_left.append types.repeated).append range.keepsApart.optional
  have same : ∀ before t, parameterPattern.readings before t =
      (.boundary ++ .exactly "parameter" ++ .gap ++ .repeated parameterType ++
        .optional (.char '[' ++ unbracketed ++ .char ']' ++ .blanks) ++ nameTail : Pattern).readings before t := by
    intro before t
    rw [readings_parameterPattern]
    simp only [packedTail, Pattern.readings_append_assoc]
  exact parameterPattern_ledBy.begins.namesWords_inside same keeps.keepsApart rfl rfl
    (fun _ => Pattern.opens_blanks_char (by decide)) rfl

theorem name_of_portOf {found : Match} {p : Port} (h : portOf found = .ok p) : p.name = found.group 4 := by
  obtain ⟨direction, -, h⟩ := Extraction.exists_of_bind_eq_ok h
  cases h
  rfl

theorem exists_standsAt_unitName (source : Text) :
    unitName source = unknownUnit ∨ ∃ offset, StandsAt (stripComments source) offset (unitName source) := by
  rw [unitName]
  cases search : modulePattern.search? (stripComments source) with
  | none => exact .inl rfl
  | some found => exact .inr (modulePattern_namesWords.exists_standsAt search)

theorem standInOrder_ports {ports : List Port} (h : Verilog.ports source = .ok ports) :
    StandInOrder (stripComments source) (ports.map Port.name) := by
  rw [Extraction.map_eq_of_mapM_eq_ok h fun _ _ _ => name_of_portOf]
  exact (portPattern_namesWords.wordsIn_findAll _).standInOrder

theorem standInOrder_generics (source : Text) :
    StandInOrder (stripComments source) ((generics source).map Generic.name) := by
  rw [generics, List.map_map]
  exact (parameterPattern_namesWords.wordsIn_findAll _).standInOrder

end Verilog

namespace Vhdl

theorem entityPattern_namesWords : entityPattern.NamesWords 1 := by
  have same : ∀ before t, entityPattern.readings before t =
      (.boundary ++ .keyword "entity" ++ .gap ++ (.group 1 .word ++ (.gap ++ (.keyword "is" ++ .boundary))) :
        Pattern).readings before t := by
    intro before t
    simp only [entityPattern, Pattern.readings_append_assoc]
  have closed : ∀ c, Text.isWord c = true → (.gap ++ (.keyword "is" ++ .boundary) : Pattern).opens c = false := by
    intro c word
    simp [Pattern.gap, Text.not_isBlank_of_isWord word]
  exact entityPattern_ledBy.begins.namesWords_inside same endsApart_gap.append_left.keepsApart rfl rfl closed rfl

theorem portPattern_namesWords : portPattern.NamesWords 1 := by
  have range : (Pattern.group 4 rangePart).EndsApart := (endsApart_char (by decide)).append_left.group 4
  have ends : portPattern.EndsApart := endsApart_boundary.append_left.append range.keepsApart.optional
  exact Pattern.namesWords_first readings_portPattern ends.takesApart rfl rfl
    (fun _ => Pattern.opens_blanks_char (by decide)) rfl

theorem genericPattern_namesWords : genericPattern.NamesWords 1 := by
  have range : boundsPart.EndsApart := (endsApart_char (by decide)).append_left
  have value : defaultPart.TakesApart := Pattern.takesApart_group_atLeastOne 6 fun c word =>
    bne_iff_ne.mpr (Text.ne_of_isWord word (by decide))
  have type : (.group 1 .word ++ .blanks ++ .char ':' ++ .blanks ++ .group 2 .word : Pattern).TakesApart :=
    Pattern.takesApart_group_atLeastOne 2 fun _ word => word
  exact Pattern.namesWords_first readings_genericPattern ((type.optional range.takesApart).optional value) rfl rfl
    (fun _ => Pattern.opens_blanks_char (by decide)) rfl

theorem exists_of_genericClause? (h : genericClause? t = some clause) :
    ∃ u s, t = u ++ (clause ++ ')' :: s) ∧ (lastOf none u).any Text.isWord = false := by
  obtain ⟨found, search, rfl⟩ := Option.map_eq_some_iff.mp h
  obtain ⟨u, s, rfl, read⟩ := Pattern.readsIn_of_search? (p := genericBlockPattern) rfl search
  obtain ⟨first, hfirst, r, split, second, hsecond, whole⟩ := Pattern.exists_of_mem_append read
  obtain ⟨opening, hopening, v, rest, inner, hinner, rfl⟩ := Pattern.exists_of_mem_append hfirst
  obtain ⟨x, -, y, -, bracket, hbracket, rfl⟩ := Pattern.exists_of_mem_append hopening
  obtain ⟨stretch, -, rfl⟩ := List.mem_map.mp hinner
  obtain ⟨-, rfl⟩ := Pattern.mem_char.mp hbracket
  have closing := Pattern.mem_exactly hsecond
  have named : found.group 1 = stretch.text := by
    rw [← Match.group_reading, whole, closing]
    simp [Reading.group, Reading.group?, Reading.append, Reading.keep]
  refine ⟨u ++ (x.text ++ ['(']), ';' :: s, ?_, ?_⟩
  · rw [named, whole, closing]
    simp [Reading.append, Reading.keep]
  · rw [lastOf_append, lastOf_append]
    exact (by decide : Text.isWord '(' = false)

theorem name_of_portOf {found : Match} {p : Port} (h : portOf found = .ok p) : p.name = found.group 1 := by
  obtain ⟨direction, -, h⟩ := Extraction.exists_of_bind_eq_ok h
  cases h
  rfl

theorem exists_standsAt_unitName (source : Text) :
    unitName source = unknownUnit ∨ ∃ offset, StandsAt (stripComments source) offset (unitName source) := by
  rw [unitName]
  cases search : entityPattern.search? (stripComments source) with
  | none => exact .inl rfl
  | some found => exact .inr (entityPattern_namesWords.exists_standsAt search)

theorem standInOrder_ports {ports : List Port} (h : Vhdl.ports source = .ok ports) :
    StandInOrder (header source) (ports.map Port.name) := by
  rw [Extraction.map_eq_of_mapM_eq_ok h fun _ _ _ => name_of_portOf]
  exact (portPattern_namesWords.wordsIn_findAll _).standInOrder

theorem standInOrder_generics (source : Text) : StandInOrder (header source) ((generics source).map Generic.name) := by
  rw [generics, genericsOf]
  cases h : genericClause? (header source) with
  | none => exact WordsIn.standInOrder .nil
  | some clause =>
      obtain ⟨u, s, split, outside⟩ := exists_of_genericClause? h
      have words := genericPattern_namesWords.wordsIn_findAll clause
      have placed : WordsIn (lastOf none u) (clause ++ ')' :: s) _ :=
        (words.behind outside.symm).append (Pattern.stops_cons.mpr (by decide))
      rw [split, List.map_map]
      exact placed.prepend.standInOrder

end Vhdl

namespace Design

def code (d : Design) : Text :=
  d.dialect.stripComments d.source

/-- The text in which the ports and the parameters of a design are looked up. -/
def scanned (d : Design) : Text :=
  match d.dialect with
  | .verilog => Verilog.stripComments d.source
  | .vhdl => Vhdl.header d.source

/-- Every name that is reported is a whole word of the scanned text, where no two names of one kind share a place or
change their order, and nothing that is scanned is in a comment. -/
theorem names_standInOrder (d : Design) :
    (d.unitName = unknownUnit ∨ ∃ offset, StandsAt d.code offset d.unitName) ∧
      (∀ ports, d.ports = .ok ports → StandInOrder d.scanned (ports.map Port.name)) ∧
      StandInOrder d.scanned (d.generics.map Generic.name) ∧
      d.dialect.commentPattern.findAll d.code = [] ∧ d.dialect.commentPattern.findAll d.scanned = [] := by
  obtain ⟨dialect, source⟩ := d
  cases dialect with
  | verilog =>
      have uncommented := Verilog.findAll_stripComments source
      exact ⟨Verilog.exists_standsAt_unitName source, fun _ => Verilog.standInOrder_ports,
        Verilog.standInOrder_generics source, uncommented, uncommented⟩
  | vhdl =>
      have free := Vhdl.not_dashes_infix_header source
      exact ⟨Vhdl.exists_standsAt_unitName source, fun _ => Vhdl.standInOrder_ports,
        Vhdl.standInOrder_generics source, Vhdl.findAll_stripComments source,
        Pattern.findAll_eq_nil_of_quiet rfl (Vhdl.quiet_commentPattern free Pattern.stops_nil)⟩

/-- A module whose last port has its name directly behind a range. -/
def packedDesign : Design where
  dialect := .verilog
  source := "module m(input a, output [1:0]q);"

theorem names_standInOrder_packed : packedDesign.ports =
      .ok [⟨"a", .input, "wire", some "1"⟩, ⟨"q", .output, "wire", some "1:0"⟩] ∧
    StandInOrder packedDesign.scanned ["a", "q"] := by
  have read : packedDesign.ports =
      .ok [⟨"a", .input, "wire", some "1"⟩, ⟨"q", .output, "wire", some "1:0"⟩] := by decide
  exact ⟨read, packedDesign.names_standInOrder.2.1 _ read⟩

end Design

end Pinout
