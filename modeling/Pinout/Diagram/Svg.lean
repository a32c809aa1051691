import Pinout.Design
import Pinout.Diagram.Label
import Pinout.Text.Quoted

/-! # Block diagrams as SVG

The drawing depends on the title and on the names and directions of the ports. A palette gives its
colours.
-/

namespace Pinout

namespace Diagram

/-- The colours of a drawing. -/
structure Palette where
  stroke : Text
  fill : Text
  text : Text

/-- Dark lines on no ground. -/
def Palette.light : Palette where
  stroke := "black"
  fill := "none"
  text := "black"

/-- White lines on a dark ground. -/
def Palette.dark : Palette where
  stroke := "white"
  fill := "#374151"
  text := "white"

/-- The palette for the dark or the light drawing. -/
def Palette.ofDark (dark : Bool) : Palette :=
  if dark then .dark else .light

/-- The name of an attribute and its value between quotes, behind a space. -/
def attr (name value : Text) : Text :=
  " " ++ name ++ "=\"" ++ value ++ "\""

def textElement (x y : Int) (anchor size colour content : Text) : Text :=
  "  <text" ++ attr "x" (Text.ofInt x) ++ attr "y" (Text.ofInt y) ++
    attr "text-anchor" anchor ++ attr "font-family" "Arial" ++
    attr "font-size" size ++ attr "fill" colour ++ ">" ++ Text.markup content ++ "</text>"

def Label.element (colour : Text) (l : Label) : Text :=
  textElement l.x l.y l.anchor.name "10" colour l.text

def canvasElement (canvasHeight : Int) : Text :=
  "<svg" ++ attr "width" (Text.ofInt canvasWidth) ++ attr "height" (Text.ofInt canvasHeight) ++
    attr "xmlns" "http://www.w3.org/2000/svg" ++ ">"

def boxElement (palette : Palette) (canvasHeight : Int) : Text :=
  "  <rect" ++ attr "x" (Text.ofInt margin) ++ attr "y" (Text.ofInt margin) ++
    attr "width" (Text.ofInt (canvasWidth - 2 * margin)) ++
    attr "height" (Text.ofInt (canvasHeight - 2 * margin)) ++
    attr "fill" palette.fill ++ attr "stroke" palette.stroke ++ " />"

def titleElement (palette : Palette) (title : Text) : Text :=
  textElement (canvasWidth / 2) 25 "middle" "12" palette.text title

/-- The drawing of a unit with the given title and ports. -/
def svg (dark : Bool) (title : Text) (ports : List Port) : Text :=
  let palette := Palette.ofDark dark
  let canvasHeight := height ports.length
  Text.document
    [[canvasElement canvasHeight, boxElement palette canvasHeight, titleElement palette title],
     (labelsFrom 0 ports).map (Label.element palette.text),
     ["</svg>"]]

def defaultTitle : Text := "Module"

/-- The drawing of ports under an optional title. An empty title counts as none. -/
def svgOfPorts (dark : Bool) (title : Option Text) (ports : List Port) : Text :=
  svg dark (textOr defaultTitle title) ports

/-- The drawing of ports under a title that may be left open. An open title shows as `None`. -/
def svgUnder (dark : Bool) (title : Option Text) (ports : List Port) : Text :=
  svg dark (title.getD "None") ports

end Diagram

/-- The block diagram of a design, titled with the name of its unit. -/
def Design.diagram (d : Design) (dark : Bool) : Except UnknownDirection Text := do
  return Diagram.svg dark d.unitName (← d.ports)

end Pinout
