import Pinout.Interface.Basic
import Pinout.Pattern.Letters
import Pinout.Pattern.Search

/-! # Verilog declarations

The header of a module, its ports and its parameters, each found by a pattern of its own in the text
without comments. Of a declaration that a pattern does not foresee it reads as much as it can.

A comment runs from two slashes to the end of the line, or from a slash and a star to the next star
and slash. Stripping a comment keeps its line breaks.
-/

namespace Pinout.Verilog

/-- A comment of either kind. A block that is never closed is none. -/
def commentPattern : Pattern :=
  (.exactly "//" ++ .many (· != '\n')) <|>
    (.exactly "/*" ++ .few (fun _ => true) ++ .exactly "*/")

def lineFeeds (t : Text) : Text :=
  t.filter (· == '\n')

/-- The text with each comment replaced by the line breaks in it. -/
def stripComments (t : Text) : Text :=
  commentPattern.replaceAll lineFeeds t

def modulePattern : Pattern :=
  .boundary ++ .exactly "module" ++ .gap ++ .group 1 .word

/-- Reads anything but square brackets. -/
def unbracketed : Pattern :=
  .many fun c => c != '[' && c != ']'

/-- A port; the groups are its direction, its net type, its range and its name. -/
def portPattern : Pattern :=
  .boundary ++ .group 1 (.keyword "input" <|> .keyword "output" <|> .keyword "inout") ++
    .boundary ++ .blanks ++
    .optional (.group 2 (.keyword "reg" <|> .keyword "wire" <|> .keyword "logic") ++
      .boundary ++ .blanks) ++
    .optional (.keyword "signed" ++ .boundary ++ .blanks) ++
    .optional (.char '[' ++ .group 3 (unbracketed ++ .char ':' ++ unbracketed) ++ .char ']' ++
      .blanks) ++
    .group 4 .word

/-- A parameter; the groups are its name and its value, which may run into what follows the list. -/
def parameterPattern : Pattern :=
  .boundary ++ .exactly "parameter" ++ .gap ++
    .repeated ((.exactly "integer" <|> .exactly "real" <|> .exactly "realtime" <|> .exactly "time" <|>
      .exactly "signed" <|> .exactly "unsigned") ++ .gap) ++
    .optional (.char '[' ++ unbracketed ++ .char ']' ++ .blanks) ++
    .group 1 .word ++ .blanks ++ .char '=' ++ .blanks ++
    .group 2 (.atLeastOne fun c => c != ',' && c != ';' && c != '\n')

/-- The part of a value in front of the parenthesis that closes an enclosing list, with `depth`
parentheses open. -/
def enclosed : (depth : Nat) → Text → Text
  | _, [] => []
  | depth, '(' :: rest => '(' :: enclosed (depth + 1) rest
  | 0, ')' :: _ => []
  | depth + 1, ')' :: rest => ')' :: enclosed depth rest
  | depth, c :: rest => c :: enclosed depth rest

/-- A value cut at the parenthesis that closes an enclosing list, and trimmed. -/
def trimValue (value : Text) : Text :=
  Text.trim (enclosed 0 value)

/-- The net type of a port that names none. -/
def defaultNetType : Text := "wire"

def portOf (found : Match) : Except UnknownDirection Port := do
  let direction ← Direction.ofKeyword (found.group 1)
  return {
    name := found.group 4
    direction
    dataType := ((found.group? 2).map Text.toLower).getD defaultNetType
    width := some (((found.group? 3).map Text.trim).getD scalarWidth) }

def genericOf (found : Match) : Generic where
  name := found.group 1
  default := some (trimValue (found.group 2))

def unitName (source : Text) : Text :=
  match modulePattern.search? (stripComments source) with
  | some found => found.group 1
  | none => unknownUnit

def ports (source : Text) : Except UnknownDirection (List Port) :=
  (portPattern.findAll (stripComments source)).mapM portOf

def generics (source : Text) : List Generic :=
  (parameterPattern.findAll (stripComments source)).map genericOf

def interface (source : Text) : Except UnknownDirection Interface := do
  return { name := unitName source, ports := ← ports source, generics := generics source }

end Pinout.Verilog
