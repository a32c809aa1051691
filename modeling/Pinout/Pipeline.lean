import Pinout.Diagram.Svg
import Pinout.Page

/-! # Pipelines

A pipeline reads a source, generates a text from it, reads that text as the next source, and so on.
-/

namespace Pinout

/-- A text that can be generated from a design. -/
inductive Artifact where
  | usage
  | testbench
  | page
  | diagram
  deriving DecidableEq, Repr

/-- Why no text can be generated. -/
inductive DesignFault where
  | dialect (e : UnsupportedDialect)
  | direction (e : UnknownDirection)
  deriving DecidableEq, Repr

def DesignFault.message : DesignFault → Text
  | dialect e => e.message
  | direction e => e.message

def Design.artifact (d : Design) : Artifact → Except UnknownDirection Text
  | .usage => d.usage
  | .testbench => d.testbench
  | .page => d.page none none
  | .diagram => d.diagram false

namespace Pipeline

/-- A stage: the dialect in which a source is read, and what is generated from it. -/
structure Stage where
  tag : Text
  artifact : Artifact

/-- The interface that a stage reads and the text that it generates. -/
def runStage (source : Text) (stage : Stage) : Except DesignFault (Interface × Text) := do
  let design ← (Design.ofTag stage.tag source).mapError DesignFault.dialect
  let unit ← design.interface.mapError DesignFault.direction
  let text ← (design.artifact stage.artifact).mapError DesignFault.direction
  return (unit, text)

/-- The results of the stages in turn, each on the text of the one before. An error is the last
result. -/
def run : (source : Text) → List Stage → List (Except DesignFault (Interface × Text))
  | _, [] => []
  | source, stage :: rest =>
    match runStage source stage with
    | .ok (unit, text) => .ok (unit, text) :: run text rest
    | .error e => [.error e]

end Pipeline

end Pinout
