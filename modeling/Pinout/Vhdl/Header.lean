import Pinout.Interface.Basic
import Pinout.Pattern.Letters
import Pinout.Pattern.Search

/-! # Entity headers

Ports and generics are looked up in the header of the first entity only: from its first keyword up
to its end clause. The end clause is looked for with string literals masked, so that none can end
the header. Without an entity the whole text counts as the header.

A comment runs from two dashes to the end of the line and is removed without a trace. A string
literal runs from one quote to the next on the same line; masking blanks it out in place.
-/

namespace Pinout.Vhdl

/-- A comment, up to the end of its line. -/
def commentPattern : Pattern :=
  .exactly "--" ++ .many (· != '\n')

def stripComments (t : Text) : Text :=
  commentPattern.replaceAll (fun _ => []) t

/-- A string literal with its quotes. -/
def stringPattern : Pattern :=
  .char '"' ++ .many (fun c => c != '"' && c != '\n') ++ .char '"'

/-- The text with every string literal turned into as many spaces. -/
def maskStrings (t : Text) : Text :=
  stringPattern.replaceAll (fun literal => List.replicate literal.length ' ') t

/-- The opening of an entity; group 1 is its name. -/
def entityPattern : Pattern :=
  .boundary ++ .keyword "entity" ++ .gap ++ .group 1 .word ++ .gap ++ .keyword "is" ++ .boundary

/-- An end clause, with or without the keyword and with or without a name. -/
def entityEndPattern : Pattern :=
  .boundary ++ .keyword "end" ++ .boundary ++ .blanks ++
    .optional (.keyword "entity" ++ .boundary ++ .blanks) ++
    .optional (.word ++ .blanks) ++ .char ';'

/-- The header of the first entity in a text without comments. -/
def headerOf (code : Text) : Text :=
  match entityPattern.search? code with
  | none => code
  | some opening =>
    let tail := code.drop opening.start.position
    match entityEndPattern.find? ((Cursor.start (maskStrings code)).skip opening.stop.position) with
    | some ending => tail.take (ending.start.position - opening.start.position)
    | none => tail

def header (source : Text) : Text :=
  headerOf (stripComments source)

def unitName (source : Text) : Text :=
  match entityPattern.search? (stripComments source) with
  | some found => found.group 1
  | none => unknownUnit

end Pinout.Vhdl
