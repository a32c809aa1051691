import Pinout.Dialect
import Pinout.Registry.Basic

/-! # The catalog

The parsers and the renderers that the library offers, registered by dialect and by output format.
-/

namespace Pinout

/-- A document format. -/
inductive Format where
  | svg
  | markdown
  deriving DecidableEq, Repr

namespace Format

def all : List Format := [svg, markdown]

def tag : Format → Text
  | svg => "svg"
  | markdown => "markdown"

def rendererName : Format → Text
  | svg => "SvgDiagramRenderer"
  | markdown => "MarkdownDocRenderer"

end Format

/-- The registered parts of the library. -/
inductive Part where
  | parser (dialect : Dialect)
  | renderer (format : Format)
  deriving DecidableEq, Repr

def Part.name : Part → Text
  | parser dialect => dialect.parserName
  | renderer format => format.rendererName

namespace Catalog

/-- The parsers by the tag of their dialect. -/
def parsers : Registry Part where
  name := "parser"
  entries := Dialect.all.map fun dialect => (dialect.tag, .parser dialect)

/-- The renderers by the key of their format. -/
def renderers : Registry Part where
  name := "renderer"
  entries := Format.all.map fun format => (format.tag, .renderer format)

end Catalog

end Pinout
