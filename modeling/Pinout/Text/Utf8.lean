import Pinout.Text.Quoted

/-! # UTF-8

Writing is the standard encoding. It has no bytes for a surrogate, so a raw text that holds one
cannot be written. In a path, though, a surrogate that stands for a byte is written as that byte.
Reading passes over every byte that begins no well-formed sequence, so each byte string has a text;
in a path it makes such a byte a surrogate again.
-/

namespace Pinout

/-- A run of surrogates that cannot be encoded. -/
structure EncodingFault where
  /-- The number of code points in front of the run. -/
  position : Nat
  first : Fin 0x800
  /-- How many surrogates follow the first one directly. -/
  further : Nat
  deriving DecidableEq, Repr

def EncodingFault.message (e : EncodingFault) : Text :=
  let what :=
    if e.further = 0 then
      "character '" ++ Text.numberEscape (CodePoint.surrogate e.first).toNat ++ "' in position " ++
        Text.ofNat e.position
    else
      "characters in position " ++ Text.ofNat e.position ++ "-" ++ Text.ofNat (e.position + e.further)
  "'utf-8' codec can't encode " ++ what ++ ": surrogates not allowed"

namespace RawText

/-- Encodes a raw text that stands behind `position` code points. `escape` gives the bytes that
surrogates stand for. -/
def encodeFrom (escape : Fin 0x800 → Option UInt8) :
    (position : Nat) → RawText → Except EncodingFault (List UInt8)
  | _, [] => .ok []
  | position, .char c :: rest => do
    return String.utf8EncodeChar c ++ (← encodeFrom escape (position + 1) rest)
  | position, .surrogate offset :: rest =>
    match escape offset with
    | some byte => do return byte :: (← encodeFrom escape (position + 1) rest)
    | none => .error ⟨position, offset, (rest.takeWhile CodePoint.isSurrogate).length⟩

def utf8 (t : RawText) : Except EncodingFault (List UInt8) :=
  encodeFrom (fun _ => none) 0 t

/-- The byte that a surrogate from U+DC80 to U+DCFF stands for. -/
def escapedByte? (offset : Fin 0x800) : Option UInt8 :=
  if 0x480 ≤ offset.val ∧ offset.val < 0x500 then some (UInt8.ofNat (offset.val - 0x400)) else none

/-- The bytes that a path is for the system. -/
def systemBytes (t : RawText) : Except EncodingFault (List UInt8) :=
  encodeFrom escapedByte? 0 t

end RawText

namespace Text

def utf8 (t : Text) : List UInt8 :=
  t.flatMap String.utf8EncodeChar

namespace Utf8

/-- The six bits of a continuation byte. -/
def continuation? (b : UInt8) : Option Nat :=
  if 0x80 ≤ b && b < 0xC0 then some (b.toNat - 0x80) else none

/-- The character with this code point, if there is one and it needs at least this many. -/
def character? (least code : Nat) : Option Char :=
  if least ≤ code ∧ code.isValidChar then some (Char.ofNat code) else none

/-- The bits of `count` continuation bytes, put behind the bits read so far. -/
def continued? : (count : Nat) → (bits : Nat) → List UInt8 → Option Nat
  | 0, bits, _ => some bits
  | _ + 1, _, [] => none
  | count + 1, bits, b :: rest => do
    continued? count (bits * 0x40 + (← continuation? b)) rest

/-- The character of the sequence that `first` begins, and how many bytes follow `first` in it. -/
def leading? (first : UInt8) (rest : List UInt8) : Option (Char × Nat) :=
  let b := first.toNat
  if b < 0x80 then some (Char.ofNat b, 0)
  else if 0xC0 ≤ b && b < 0xE0 then do
    return (← character? 0x80 (← continued? 1 (b - 0xC0) rest), 1)
  else if 0xE0 ≤ b && b < 0xF0 then do
    return (← character? 0x800 (← continued? 2 (b - 0xE0) rest), 2)
  else if 0xF0 ≤ b && b < 0xF8 then do
    return (← character? 0x10000 (← continued? 3 (b - 0xF0) rest), 3)
  else none

/-- Reads bytes after passing over the first `skip` of them. -/
def readAfter : (skip : Nat) → List UInt8 → Text
  | _, [] => []
  | skip + 1, _ :: rest => readAfter skip rest
  | 0, b :: rest =>
    match leading? b rest with
    | some (c, more) => c :: readAfter more rest
    | none => readAfter 0 rest

end Utf8

/-- The text of a byte string. A byte that begins no well-formed sequence is passed over. -/
def ofUtf8 (bytes : List UInt8) : Text :=
  Utf8.readAfter 0 bytes

end Text

namespace RawText

/-- Reads the bytes of a path after passing over the first `skip` of them. -/
def readPathAfter : (skip : Nat) → List UInt8 → RawText
  | _, [] => []
  | skip + 1, _ :: rest => readPathAfter skip rest
  | 0, b :: rest =>
    match Text.Utf8.leading? b rest with
    | some (c, more) => .char c :: readPathAfter more rest
    | none => .surrogate (Fin.ofNat _ (0x400 + b.toNat)) :: readPathAfter 0 rest

/-- The path that the system gives by these bytes. -/
def ofSystemBytes (bytes : List UInt8) : RawText :=
  readPathAfter 0 bytes

end RawText

end Pinout
