import Pinout.Text.Classes
import Pinout.Text.Basic

/-! # Cursors

A cursor is a place in a text: what stands before it, how far in it is and what follows. Patterns
move cursors, and the stretch between two cursors is a span.
-/

namespace Pinout

/-- A place in a text. -/
structure Cursor where
  /-- The character in front of the place. -/
  before : Option Char
  position : Nat
  rest : Text

namespace Cursor

/-- The place in front of a text. -/
def start (t : Text) : Cursor where
  before := none
  position := 0
  rest := t

/-- The place behind the first `count` characters that follow, or at the end. -/
def skip : Nat → Cursor → Cursor
  | 0, here => here
  | _ + 1, ⟨before, position, []⟩ => ⟨before, position, []⟩
  | count + 1, ⟨_, position, c :: rest⟩ => skip count ⟨some c, position + 1, rest⟩

/-- Whether exactly one of the two neighbours is a word character. -/
def atBoundary (here : Cursor) : Bool :=
  here.before.any Text.isWord != here.rest.head?.any Text.isWord

end Cursor

/-- A stretch of a text, from one place to a later one. -/
structure Span where
  start : Cursor
  stop : Cursor

namespace Span

def length (span : Span) : Nat :=
  span.stop.position - span.start.position

def text (span : Span) : Text :=
  span.start.rest.take span.length

end Span

end Pinout
