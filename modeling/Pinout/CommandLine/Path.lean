import Pinout.Text.Utf8

/-! # Paths

For the system a path is a row of bytes, with slashes between the names in it. It is followed one
name at a time, from the root if it begins with a slash and from the working directory otherwise.
-/

namespace Pinout.CommandLine

/-- Why a path cannot be opened for writing. -/
inductive PathFault where
  /-- A directory on the way is missing, or nothing new can be made where the path leads. -/
  | missing (path : RawText)
  | directory (path : RawText)
  | notDirectory (path : RawText)
  | tooLong (path : RawText)
  | denied (path : RawText)
  /-- No device stands behind the path. -/
  | noDevice (path : RawText)
  | nullCharacter
  /-- The path holds a surrogate that stands for no byte. -/
  | unencodable (e : EncodingFault)
  deriving DecidableEq, Repr

def PathFault.message : PathFault → Text
  | missing path => "[Errno 2] No such file or directory: " ++ RawText.quoted path
  | directory path => "[Errno 21] Is a directory: " ++ RawText.quoted path
  | notDirectory path => "[Errno 20] Not a directory: " ++ RawText.quoted path
  | tooLong path => "[Errno 36] File name too long: " ++ RawText.quoted path
  | denied path => "[Errno 13] Permission denied: " ++ RawText.quoted path
  | noDevice path => "[Errno 6] No such device or address: " ++ RawText.quoted path
  | nullCharacter => "embedded null byte"
  | unencodable e => e.message

/-- A name in a path. -/
abbrev FileName := List UInt8

def asciiByte (c : Char) : UInt8 :=
  UInt8.ofNat c.toNat

/-- The names in a path, between its slashes. -/
def pathNames : (path : List UInt8) → List FileName
  | [] => [[]]
  | b :: rest =>
    if b = asciiByte '/' then [] :: pathNames rest
    else match pathNames rest with
      | [] => [[b]]
      | name :: more => (b :: name) :: more

/-- The name of the directory in which it stands. -/
def hereName : FileName := [asciiByte '.']

/-- The name of the directory above. -/
def aboveName : FileName := [asciiByte '.', asciiByte '.']

def longestName : Nat := 255

def longestPath : Nat := 4095

/-- A directory from which places are named. -/
inductive Origin where
  | root
  /-- The directory so many steps above the working directory. -/
  | above (steps : Nat)
  deriving DecidableEq, Repr

/-- A place, named from an origin downwards. -/
structure Location where
  origin : Origin
  names : List FileName := []
  deriving DecidableEq, Repr

namespace Location

def root : Location where
  origin := .root

def workingDirectory : Location where
  origin := .above 0

def child (l : Location) (name : FileName) : Location :=
  { l with names := l.names ++ [name] }

/-- The directory above a place. Nothing is above the root. -/
def parent (l : Location) : Location :=
  match l.names, l.origin with
  | [], .root => root
  | [], .above steps => { origin := .above (steps + 1) }
  | names, origin => { origin, names := names.dropLast }

/-- Whether the place lies in the working directory. -/
def isInside (l : Location) : Bool :=
  l.origin = .above 0

/-- Where a path starts. -/
def start (path : List UInt8) : Location :=
  if path.head? = some (asciiByte '/') then root else workingDirectory

def path (l : Location) : RawText :=
  .ofSystemBytes ([asciiByte '/'].intercalate l.names)

end Location

end Pinout.CommandLine
