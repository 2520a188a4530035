import DatasetCache.Config.Toml

/-!
# Configuration files

Loading a configuration from a file and saving it to one, over any file system.  One of
them is a tree of files and directories, with a working directory somewhere in it.
-/

namespace DatasetCache

inductive FileTree.Node where
  | file (bytes : List UInt8)
  | directory
  deriving DecidableEq, Repr

/-- Files and directories by their places.  A place is given by the names that lead to it
from the root.  The directories down to the working directory are always there, and no
access is denied. -/
structure FileTree where
  home : List String := ["tmp", "work"]
  nodes : Table (List String) FileTree.Node := Table.empty
  deriving DecidableEq, Repr, Inhabited

namespace FileTree

def bytesOf (text : String) : List UInt8 := text.toUTF8.toList

/-! ## Paths -/

def splitSlashes : List Char → List (List Char)
  | [] => [[]]
  | c :: rest =>
    if c = '/' then [] :: splitSlashes rest
    else
      match splitSlashes rest with
      | [] => [[c]]
      | step :: steps => (c :: step) :: steps

/-- Whether a text can be a path: it has at most 4095 bytes, none of them zero. -/
def isPath (path : String) : Bool := !path.toList.contains '\x00' && path.utf8ByteSize ≤ 4095

def isIdle (step : List Char) : Bool := step.isEmpty || step == ['.']

def isUpward (step : List Char) : Bool := step == ['.', '.']

/-- Whether a step can name something: it has at most 255 bytes. -/
def isName (step : List Char) : Bool :=
  !isIdle step && !isUpward step && (String.ofList step).utf8ByteSize ≤ 255

/-! ## Places -/

def start (tree : FileTree) (path : String) : List String :=
  if path.toList.head? = some '/' then [] else tree.home

def isDirectory (tree : FileTree) (place : List String) : Bool :=
  place.isPrefixOf tree.home || tree.nodes.get? place == some .directory

/-- Where steps lead from a place.  Each has to lead to a directory; the root has no
directory above it and stays in place. -/
def walk? (tree : FileTree) (place : List String) : List (List Char) → Option (List String)
  | [] => some place
  | step :: rest =>
    if isIdle step then tree.walk? place rest
    else if isUpward step then tree.walk? place.dropLast rest
    else
      let next := place ++ [String.ofList step]
      if tree.isDirectory next then tree.walk? next rest else none

/-- The place that the path of a file names, in a directory that exists. -/
def locate? (tree : FileTree) (path : String) : Option (List String) := do
  let steps := splitSlashes path.toList
  let last ← steps.getLast?
  if isPath path && isName last then
    let directory ← tree.walk? (tree.start path) steps.dropLast
    return directory ++ [String.ofList last]
  else
    none

/-! ## Operations -/

def put (tree : FileTree) (place : List String) (node : Node) : FileTree :=
  { tree with nodes := tree.nodes.insert place node }

def read? (tree : FileTree) (path : String) : Option (List UInt8) := do
  match tree.nodes.get? (← tree.locate? path) with
  | some (.file bytes) => some bytes
  | _ => none

/-- Writes a file, replacing one that is there, into a directory that exists. -/
def write? (tree : FileTree) (path : String) (bytes : List UInt8) : Option FileTree := do
  let place ← tree.locate? path
  if tree.isDirectory place then none else some (tree.put place (.file bytes))

/-- Makes the directories that steps lead through, as far as no file is in the way. -/
def makeDirectories (tree : FileTree) (place : List String) : List (List Char) → FileTree
  | [] => tree
  | step :: rest =>
    if isIdle step then tree.makeDirectories place rest
    else if isUpward step then tree.makeDirectories place.dropLast rest
    else
      let next := place ++ [String.ofList step]
      if tree.isDirectory next then tree.makeDirectories next rest
      else if isName step && (tree.nodes.get? next).isNone then
        makeDirectories (tree.put next .directory) next rest
      else tree

/-- Makes a directory together with those that it stands in.  A path that ends in a
dot asks for a directory that is there, so its last name is not made. -/
def makeDirectory (tree : FileTree) (path : String) : FileTree :=
  let steps := (splitSlashes path.toList).filter fun step => !step.isEmpty
  if !isPath path then tree
  else if steps.getLast? = some ['.'] then
    tree.makeDirectories (tree.start path) (steps.filter fun step => !isIdle step).dropLast
  else
    tree.makeDirectories (tree.start path) steps

end FileTree

/-! ## File systems -/

/-- A file system for those who read and write whole files.  Reading answers with bytes and
writing with another disk, unless they fail. -/
structure FileSystem (Path Disk : Type) where
  display : Path → String
  read : Disk → Path → Option (List UInt8)
  write : Disk → Path → List UInt8 → Option Disk

def FileTree.system : FileSystem String FileTree := ⟨id, FileTree.read?, FileTree.write?⟩

namespace FileSystem

variable {Path Disk : Type} (files : FileSystem Path Disk)

/-- Whether the bytes written to a path are read from it afterwards. -/
def Returns : Prop :=
  ∀ disk path bytes after,
    files.write disk path bytes = some after → files.read after path = some bytes

/-- The text of a file, which its bytes have to encode. -/
def text? (disk : Disk) (path : Path) : Option String := do
  String.fromUTF8? ⟨(← files.read disk path).toArray⟩

end FileSystem

namespace Config

variable {Path Disk : Type} (files : FileSystem Path Disk)

def load (disk : Disk) (path : Path) : Except Fault Config :=
  let shown := files.display path
  match files.text? disk path with
  | none => .error (.internal ("Failed to read config file '" ++ shown ++ "': <io>"))
  | some text =>
    match ofToml text with
    | .error (.invalidInput message) => .error (.invalidInput (message ++ " (" ++ shown ++ ")"))
    | answer => answer

def save (disk : Disk) (path : Path) (config : Config) : Except Fault Disk :=
  match files.write disk path (FileTree.bytesOf config.toToml) with
  | none =>
    .error (.internal ("Failed to write config file '" ++ files.display path ++ "': <io>"))
  | some disk => .ok disk

end Config

end DatasetCache
