import Pinout.CommandLine.Path
import Pinout.Text.Order

/-! # File trees

The files of a working directory and what is known of its surroundings. A path is followed through
the tree to a place, and reading and writing act on that place. Every directory on the way has to be
there, also one that the path leaves again.

Writing has two steps. Opening a file for writing empties it, or makes it if there is none; storing
then puts bytes into it, as many as the system takes.
-/

namespace Pinout.CommandLine

/-- Something that is written to like a file and keeps nothing. -/
inductive Device where
  | sink
  | full
  | output
  | errors
  deriving DecidableEq, Repr

/-- What is at a place. -/
inductive Node where
  | directory
  /-- A directory of the system in which nothing new can be made. An attempt is denied, or it finds
  nothing there. -/
  | sealed (denies : Bool)
  | file (contents : List UInt8)
  | device (device : Device)
  | detached
  deriving DecidableEq, Repr

/-- Why the system takes no more bytes. -/
inductive StorageFault where
  | noSpace
  | tooLarge
  | quotaExceeded
  | inputOutput
  deriving DecidableEq, Repr

def StorageFault.message : StorageFault → Text
  | noSpace => "[Errno 28] No space left on device"
  | tooLarge => "[Errno 27] File too large"
  | quotaExceeded => "[Errno 122] Disk quota exceeded"
  | inputOutput => "[Errno 5] Input/output error"

/-- How many bytes the system takes for a file, and why it takes no more. -/
structure Shortage where
  room : Nat
  fault : StorageFault
  deriving DecidableEq, Repr

/-- The directories in the root in which files can be made. -/
def rootDirectories : List Text :=
  ["bin", "boot", "dev", "etc", "home", "lib", "media", "mnt", "opt", "root", "run", "sbin", "srv",
   "tmp", "usr", "var"]

/-- What is among the devices of a program that has no terminal and nothing to read. -/
def deviceNodes : List (List Text × Node) :=
  [(["null"], .device .sink), (["zero"], .device .sink), (["random"], .device .sink),
   (["urandom"], .device .sink), (["ptmx"], .device .sink), (["full"], .device .full),
   (["stdin"], .device .sink), (["stdout"], .device .output), (["stderr"], .device .errors),
   (["fd"], .sealed false), (["fd", "0"], .device .sink), (["fd", "1"], .device .output),
   (["fd", "2"], .device .errors), (["tty"], .detached), (["shm"], .directory), (["pts"], .sealed true)]

/-- What is known around the working directory. -/
def surroundings : List (Location × Node) :=
  (rootDirectories.map fun name => (.child .root (Text.utf8 name), .directory)) ++
    [(.child .root (Text.utf8 "proc"), .sealed false), (.child .root (Text.utf8 "sys"), .sealed true)] ++
    deviceNodes.map fun (names, node) =>
      ({ origin := .root, names := Text.utf8 "dev" :: names.map Text.utf8 }, node)

/-- The files of a working directory and its surroundings. -/
structure FileTree where
  nodes : List (Location × Node) := surroundings
  /-- What the system takes for a file, if it does not take everything. -/
  shortage : Option Shortage := none
  deriving DecidableEq, Repr

namespace FileTree

def node? (tree : FileTree) (location : Location) : Option Node :=
  if location.names.isEmpty then some .directory else tree.nodes.lookup location

def put (tree : FileTree) (location : Location) (node : Node) : FileTree :=
  { tree with
    nodes :=
      if (tree.nodes.lookup location).isSome then
        tree.nodes.map fun (place, old) => (place, if place = location then node else old)
      else tree.nodes ++ [(location, node)] }

/-- What a path leads to. -/
inductive Place where
  | file (location : Location) (contents : List UInt8)
  | device (device : Device)
  | detached
  | directory
  /-- Nothing yet, in a directory that is there. -/
  | vacant (location : Location)
  /-- Nothing, below a directory that is not there either. -/
  | missing
  /-- Nothing, where the system lets nothing be made. -/
  | denied
  /-- Nothing, below something that is no directory. -/
  | blocked
  /-- Nothing, since no place has a name of this length. -/
  | tooLong
  deriving DecidableEq, Repr

/-- What the last name of a path leads to where nothing has it. -/
def vacancy (tree : FileTree) (directory : Location) (name : FileName) : Place :=
  match tree.node? directory with
  | some (.sealed denies) => if denies then .denied else .missing
  | _ => .vacant (directory.child name)

/-- Follows names from a directory on. A slash at the end of a path asks for a directory, even where
there is none. -/
def follow (tree : FileTree) : (directory : Location) → List FileName → Place
  | _, [] => .directory
  | directory, name :: rest =>
    if name = [] || name = hereName then tree.follow directory rest
    else if name = aboveName then tree.follow directory.parent rest
    else if !rest.isEmpty && rest.all List.isEmpty then .directory
    else if longestName < name.length then .tooLong
    else
      let location := directory.child name
      match tree.node? location with
      | some .directory | some (.sealed _) => tree.follow location rest
      | some (.file contents) => if rest.isEmpty then .file location contents else .blocked
      | some (.device device) => if rest.isEmpty then .device device else .blocked
      | some .detached => if rest.isEmpty then .detached else .blocked
      | none => if rest.isEmpty then tree.vacancy directory name else .missing

/-- What the bytes of a path lead to. The empty path leads nowhere. -/
def place (tree : FileTree) (path : List UInt8) : Place :=
  if path.isEmpty then .missing
  else if longestPath < path.length then .tooLong
  else tree.follow (.start path) (pathNames path)

/-- What a path leads to, if the system can be asked for it. -/
def resolve (tree : FileTree) (path : RawText) : Except PathFault Place :=
  match path.systemBytes with
  | .error e => .error (.unencodable e)
  | .ok bytes => if 0 ∈ bytes then .error .nullCharacter else .ok (tree.place bytes)

def read? (tree : FileTree) (path : RawText) : Option (List UInt8) :=
  match tree.resolve path with
  | .ok (.file _ contents) => some contents
  | _ => none

/-- What has been opened for writing. -/
inductive Stream where
  | file (location : Location)
  | device (device : Device)
  deriving DecidableEq, Repr

/-- What opening a place for writing gives. -/
def Place.stream (path : RawText) : Place → Except PathFault Stream
  | file location _ | vacant location => .ok (.file location)
  | device kind => .ok (.device kind)
  | detached => .error (.noDevice path)
  | directory => .error (.directory path)
  | missing => .error (.missing path)
  | denied => .error (.denied path)
  | blocked => .error (.notDirectory path)
  | tooLong => .error (.tooLong path)

/-- Opens a path for writing. The stream comes with the files as opening leaves them. -/
def openForWriting (tree : FileTree) (path : RawText) : Except PathFault (Stream × FileTree) := do
  let stream ← (← tree.resolve path).stream path
  return (stream, match stream with
    | .file location => tree.put location (.file [])
    | .device _ => tree)

/-- The bytes that the system takes of those for a file. -/
def taken (tree : FileTree) (bytes : List UInt8) : List UInt8 :=
  bytes.take (tree.shortage.elim bytes.length Shortage.room)

/-- Why the system does not take all the bytes. -/
def shortfall? (tree : FileTree) (bytes : List UInt8) : Option StorageFault :=
  tree.shortage.bind fun shortage => if shortage.room < bytes.length then some shortage.fault else none

/-- Stores bytes in an opened file, as far as the system takes them. -/
def store (tree : FileTree) (location : Location) (bytes : List UInt8) : FileTree :=
  tree.put location (.file (tree.taken bytes))

/-- Puts a file at the end of a row of names, with the directories that are missing on the way. -/
def install (tree : FileTree) (directory : Location) : List FileName → List UInt8 → FileTree
  | [], _ => tree
  | [name], contents => tree.put (directory.child name) (.file contents)
  | name :: rest, contents =>
    if name = [] || name = hereName then tree.install directory rest contents
    else if name = aboveName then tree.install directory.parent rest contents
    else
      let below := directory.child name
      let tree := if (tree.node? below).isSome then tree else tree.put below .directory
      tree.install below rest contents

/-- The tree of the given files, each with its path, and the directories that the paths go through. -/
def ofFiles (files : List (List UInt8 × List UInt8)) : FileTree :=
  files.foldl (fun tree (path, contents) => tree.install (.start path) (pathNames path) contents) {}

def files (tree : FileTree) : List (Location × List UInt8) :=
  tree.nodes.filterMap fun (location, node) =>
    match node with
    | .file contents => if location.isInside then some (location, contents) else none
    | _ => none

/-- The files that are new or have other contents than in `old`, in order of their paths. -/
def changesSince (tree old : FileTree) : List (RawText × List UInt8) :=
  let changed := tree.files.filter fun (location, contents) => old.files.lookup location ≠ some contents
  (changed.map fun (location, contents) => (location.path, contents)).mergeSort
    fun a b => a.1.precedes b.1

end FileTree

end Pinout.CommandLine
