/-!
# Files by their paths

A `Folder` holds files by their names. `Folder.readText` and `Folder.write` take a path: it is cut
at its slashes, and its steps are walked from folder to folder, up to the name that it ends in.
Every step but the last must lead to a folder, and the first one that does not says what is wrong
with the path.

Of the tree that the folder stands in, no more is known than what is the same everywhere: there are
folders above, the root is one of them, and a few folders and the null device stand in it. What is
written elsewhere in the tree is not seen again.
-/

set_option autoImplicit false

namespace Tonegraph.CommandLine

/-- Why a file cannot be read or written. -/
inductive FileFault where
  | missing
  | notFolder
  | isFolder
  | nameTooLong
  | notText
  | other (text : String)
deriving DecidableEq, Repr

/-- What a file fault says. -/
def FileFault.message : FileFault → String
  | .missing => "No such file or directory (os error 2)"
  | .notFolder => "Not a directory (os error 20)"
  | .isFolder => "Is a directory (os error 21)"
  | .nameTooLong => "File name too long (os error 36)"
  | .notText => "stream did not contain valid UTF-8"
  | .other text => text

/-- Bytes as text. -/
def textOfBytes (bytes : ByteArray) : Except FileFault String :=
  match String.fromUTF8? bytes with
  | some text => .ok text
  | none => .error .notText

/-! ## The tree around -/

/-- A folder of the tree: the one that holds the files, one of those above it, the root, or one that
stands in every root. -/
inductive Place where
  | own
  | above
  | root
  | standard (name : String)
deriving DecidableEq, Repr

/-- The folder that a folder stands in. The root stands in itself. -/
def Place.parent : Place → Place
  | .own | .above => .above
  | .root | .standard _ => .root

/-- The folders that stand in every root. -/
def standardFolders : List String :=
  ["bin", "boot", "dev", "etc", "home", "lib", "media", "mnt", "opt", "proc", "root", "run", "sbin",
   "srv", "sys", "tmp", "usr", "var"]

/-- What stands under a name. -/
inductive Entry where
  | folder (place : Place)
  | file (bytes : ByteArray)

/-! ## Paths -/

/-- A path, cut at its slashes: the folder that it starts from, the names between the slashes, and
whether a slash ends it. -/
structure Path where
  start : Place
  steps : List String
  endsInSlash : Bool

/-- The most bytes that a name can have. -/
def maxNameBytes : Nat := 255

/-- The most bytes that the text of a path can have. -/
def maxPathBytes : Nat := 4095

/-- The path that a text tells. The empty text tells none. -/
def Path.ofString (text : String) : Except FileFault Path :=
  let parts := text.splitOn "/"
  if text = "" then .error .missing
  else if maxPathBytes < text.utf8ByteSize then .error .nameTooLong
  else .ok {
    start := if parts.head? = some "" then .root else .own
    steps := parts.filter (· ≠ "")
    endsInSlash := parts.getLast? = some "" }

/-- Whether a step names a folder by where it stands: a dot is the folder itself, and two dots are
the one that it stands in. -/
def isDots (step : String) : Bool := step = "." || step = ".."

/-! ## Folders -/

/-- Files by their names. -/
abbrev Folder := List (String × ByteArray)

namespace Folder

/-- What stands under a name in a place, as far as it is known. -/
def find (folder : Folder) (place : Place) (name : String) : Except FileFault (Option Entry) :=
  if maxNameBytes < name.utf8ByteSize then .error .nameTooLong
  else match place, name with
    | .own, name => .ok ((folder.lookup name).map .file)
    | .above, _ => .ok none
    | .root, name =>
      .ok (if name ∈ standardFolders then some (.folder (.standard name)) else none)
    | .standard "dev", "null" => .ok (some (.file .empty))
    | .standard _, _ => .ok none

/-- The folder that a step leads to. -/
def step (folder : Folder) (place : Place) (name : String) : Except FileFault Place :=
  if name = "." then .ok place
  else if name = ".." then .ok place.parent
  else do
    match ← folder.find place name with
    | some (.folder inner) => return inner
    | some (.file _) => throw .notFolder
    | none => throw .missing

/-- Walks a path up to the name that it ends in, and gives that name with the folder to look for it
in. A path without such a name leads to a folder. -/
def walk (folder : Folder) (path : Path) : Except FileFault (Place × String) :=
  match path.steps.getLast? with
  | none => .error .isFolder
  | some last =>
    if isDots last then do
      let _ ← path.steps.foldlM folder.step path.start
      throw .isFolder
    else do
      return (← path.steps.dropLast.foldlM folder.step path.start, last)

/-- The text of the file that a path names. A slash behind the name asks for a folder. -/
def readText (folder : Folder) (text : String) : Except FileFault String := do
  let path ← Path.ofString text
  let (place, name) ← folder.walk path
  match ← folder.find place name with
  | some (.folder _) => throw .isFolder
  | some (.file bytes) => if path.endsInSlash then throw .notFolder else textOfBytes bytes
  | none => throw .missing

/-- Replaces a file, or puts it at the end. -/
def put (name : String) (bytes : ByteArray) : Folder → Folder
  | [] => [(name, bytes)]
  | entry :: rest => if entry.1 = name then (name, bytes) :: rest else entry :: put name bytes rest

/-- Replaces the file that a path names, or makes it. A slash behind the name asks for a folder,
whether or not there is anything of that name. -/
def write (folder : Folder) (text : String) (bytes : ByteArray) : Except FileFault Folder := do
  let path ← Path.ofString text
  let (place, name) ← folder.walk path
  if path.endsInSlash then throw .isFolder
  match place, ← folder.find place name with
  | _, some (.folder _) => throw .isFolder
  | .own, _ => return folder.put name bytes
  | _, _ => return folder

end Folder

end Tonegraph.CommandLine
