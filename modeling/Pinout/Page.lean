import Pinout.Design

/-! # Documentation pages

A page in Markdown: tables of the ports and the generics, a link to the block diagram, an optional
description, and the generated instance and testbench as code.
-/

namespace Pinout

namespace Page

/-- The file in which the diagram of a unit is expected. -/
def diagramFile (unit : Text) : Text :=
  unit ++ "_block_diagram.svg"

def row (cells : List Text) : Text :=
  "| " ++ Text.joinWith " | " cells ++ " |"

def portRow (p : Port) : Text :=
  row [p.name, p.direction.name, p.dataType, textOrEmpty p.width]

def genericRow (g : Generic) : Text :=
  row [g.name, textOrEmpty g.dataType, textOrEmpty g.width, textOrEmpty g.default]

def portTable (ports : List Port) : List Text :=
  if ports.isEmpty then ["No ports found."]
  else
    "| Name | Direction | Type | Width |" :: "|------|-----------|------|-------|" ::
      ports.map portRow

def genericTable (generics : List Generic) : List Text :=
  if generics.isEmpty then ["No generics found."]
  else
    "| Name | Type | Width | Default |" :: "|------|------|-------|---------|" ::
      generics.map genericRow

/-- A text fenced as code of a dialect. -/
def fenced (dialect : Dialect) (code : Text) : List Text :=
  ["```" ++ dialect.tag, code, "```"]

/-- The section on the description, or nothing where it is blank. -/
def descriptionSection (description : Option Text) : List Text :=
  let text := Text.trim (textOrEmpty description)
  if text.isEmpty then [] else ["", "## Description", "", text]

/-- What stands in front of the description. -/
def frontSections (dialect : Dialect) (unit : Interface) (diagram : Text) : List (List Text) :=
  [["# " ++ unit.name, "",
    "Documentation for the " ++ dialect.title ++ " " ++ dialect.unitKeyword ++ " `" ++ unit.name ++
      "`.", "",
    "## Ports", ""],
   portTable unit.ports,
   ["", "## Generics", ""],
   genericTable unit.generics,
   ["", "## Block Diagram", "", "![" ++ unit.name ++ " block diagram](" ++ diagram ++ ")"]]

/-- What stands behind the description. -/
def backSections (dialect : Dialect) (usage testbench : Text) : List (List Text) :=
  [["", "## Sample Usage", ""],
   fenced dialect usage,
   ["", "## Sample Testbench", ""],
   fenced dialect (Text.trim testbench)]

def render (dialect : Dialect) (unit : Interface) (diagram : Text) (description : Option Text)
    (usage testbench : Text) : Text :=
  Text.document (frontSections dialect unit diagram ++ [descriptionSection description] ++
    backSections dialect usage testbench)

/-- The section on a raw description, or nothing where it is blank. -/
def rawDescription (description : Option RawText) : RawText :=
  let text := RawText.trim (description.getD [])
  if text.isEmpty then [] else Text.document [["", "## Description", ""]] ++ text ++ "\n"

def renderRaw (dialect : Dialect) (unit : Interface) (diagram : Text) (description : Option RawText)
    (usage testbench : Text) : RawText :=
  Text.document (frontSections dialect unit diagram) ++ rawDescription description ++
    Text.document (backSections dialect usage testbench)

end Page

/-- The documentation page of a design. An empty diagram path counts as none. -/
def Design.page (d : Design) (description diagramPath : Option Text) :
    Except UnknownDirection Text := do
  let unit ← d.interface
  let diagram := textOr (Page.diagramFile unit.name) diagramPath
  return Page.render d.dialect unit diagram description (← d.usage) (← d.testbench)

/-- The documentation page of a design, with a raw description. -/
def Design.rawPage (d : Design) (description : Option RawText) (diagramPath : Option Text) :
    Except UnknownDirection RawText := do
  let unit ← d.interface
  let diagram := textOr (Page.diagramFile unit.name) diagramPath
  return Page.renderRaw d.dialect unit diagram description (← d.usage) (← d.testbench)

end Pinout
