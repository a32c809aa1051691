import Pinout.Text.Basic
import Pinout.Text.LowerCaseTable

/-! # Lower case

Full lower-casing of a text. Two rules go beyond a table of letters: the capital I with a dot
becomes two characters, and a capital sigma at the end of a word becomes the final sigma.
-/

namespace Pinout.Text

/-- The small letter of a character, where it has one small letter of its own. -/
def smallLetter (c : Char) : Char :=
  if c.toNat < 0x80 then c.toLower
  else match capitalRuns.findSome? (·.small? c.toNat) with
    | some code => Char.ofNat code
    | none => c

/-- Whether the first character that counts, in reading order of the list, is a cased letter. -/
def meetsCased : Text → Bool
  | [] => false
  | c :: rest =>
    if caseIgnorableRanges.contains c.toNat then meetsCased rest
    else casedRanges.contains c.toNat

/-- Lower-cases `rest`, which stands after the characters of `before`, nearest first. -/
def lowerAfter : Text → Text → Text
  | _, [] => []
  | before, c :: rest =>
    let small : Text :=
      if c = 'Σ' then [if meetsCased before && !meetsCased rest then 'ς' else 'σ']
      else if c = 'İ' then ['i', '\u0307']
      else [smallLetter c]
    small ++ lowerAfter (c :: before) rest

def toLower (t : Text) : Text :=
  lowerAfter [] t

end Pinout.Text
