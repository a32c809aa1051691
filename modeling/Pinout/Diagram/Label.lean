import Pinout.Interface.Basic

/-! # Labels of a block diagram

A unit is drawn as a box with one row per port. Inputs stand along the left edge, all other ports
along the right one.
-/

namespace Pinout.Diagram

def canvasWidth : Int := 200

def margin : Int := 10

def rowHeight : Int := 20

/-- The distance between a label and the edge of the canvas. -/
def labelInset : Int := 15

def height (portCount : Int) : Int :=
  30 + rowHeight * portCount

/-- Which end of a label its place fixes. -/
inductive Anchor where
  | start
  | stop
  deriving DecidableEq, Repr

def Anchor.name : Anchor → Text
  | start => "start"
  | stop => "end"

/-- A text at a place of the canvas. -/
structure Label where
  x : Int
  y : Int
  anchor : Anchor
  text : Text
  deriving DecidableEq, Repr

/-- The arrow at the outer end of a label. -/
def arrow : Direction → Text
  | .input | .output => "→"
  | .inout => "↔"

def labelAt (row : Int) (p : Port) : Label :=
  let y := 40 + rowHeight * row
  if p.isInput then
    { x := labelInset, y, anchor := .start, text := arrow p.direction ++ " " ++ p.name }
  else
    { x := canvasWidth - labelInset, y, anchor := .stop, text := p.name ++ " " ++ arrow p.direction }

/-- The labels of ports in consecutive rows, from `row` on. -/
def labelsFrom (row : Int) : List Port → List Label
  | [] => []
  | p :: rest => labelAt row p :: labelsFrom (row + 1) rest

end Pinout.Diagram
