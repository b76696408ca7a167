import Reckoner.Disk.Basic
import Reckoner.Disk.Path
/-!
# A disk of files and folders

A tree lists files and folders, each at its place below the root. A path is followed name by name: every
name but the last has to be a folder, `..` leads upwards, and at the root it stands still.
-/

namespace Reckoner.Disk

inductive Entry where
  | folder
  | file (content : ByteArray)

/-- Files and folders by their places; a folder that holds one of them need not be listed. Relative
paths start at `working`. -/
structure Tree where
  working : List String
  entries : List (List String × Entry)

namespace Tree

def at? (t : Tree) (place : List String) : Option Entry :=
  if place = [] then some .folder
  else match t.entries.lookup place with
    | some entry => some entry
    | none => if t.entries.any fun (other, _) => place.isPrefixOf other then some .folder else none

/-- No name has more bytes than this. -/
def nameLimit : Nat := 255

/-- No path has more bytes than this. -/
def pathLimit : Nat := 4095

/-- What a name stands for in a folder. -/
def find (t : Tree) (folder : List String) (name : String) : Except Error (Option Entry) :=
  if nameLimit < name.utf8ByteSize then .error .nameTooLong else .ok (t.at? (folder ++ [name]))

/-- The folder that a name leads to from a folder. -/
def enter (t : Tree) (folder : List String) (name : String) : Except Error (List String) := do
  if name = "." then return folder
  if name = ".." then return folder.dropLast
  match ← t.find folder name with
  | some .folder => return folder ++ [name]
  | some (.file _) => throw .notFolder
  | none => throw .missing

/-- Where a path starts, if its text is one that can be followed at all. -/
def start (t : Tree) (path : String) : Except Error (List String) :=
  if path.toList.contains '\x00' then .error .nullCharacter
  else if path = "" then .error .missing
  else if pathLimit < path.utf8ByteSize then .error .nameTooLong
  else .ok (if path.startsWith "/" then [] else t.working)

/-- The folder in which the last name of a path is looked up, and that name; there is none if the path
ends at the folder itself. -/
def follow (t : Tree) (path : String) : Except Error (List String × Option String) := do
  let start ← t.start path
  let steps := Path.steps path
  match steps.getLast? with
  | none => return (start, none)
  | some last =>
    let folder ← steps.dropLast.foldlM t.enter start
    if last = "." || last = ".." then return (← t.enter folder last, none)
    else return (folder, some last)

def read (t : Tree) (path : String) : Except Error ByteArray := do
  match ← t.follow path with
  | (_, none) => throw .isFolder
  | (folder, some name) => match ← t.find folder name with
    | none => throw .missing
    | some .folder => throw .isFolder
    | some (.file content) => if path.endsWith "/" then throw .notFolder else return content

/-- The place of the file that is written at a path; whatever ends in a slash is taken for a folder. -/
def placeToWrite (t : Tree) (path : String) : Except Error (List String) := do
  match ← t.follow path with
  | (_, none) => throw .isFolder
  | (folder, some name) =>
    if path.endsWith "/" then throw .isFolder
    match ← t.find folder name with
    | some .folder => throw .isFolder
    | _ => return folder ++ [name]

/-- Whether a path leads to a folder; only names that are too long stop the question itself. -/
def hasFolder (t : Tree) (path : String) : Except Error Bool :=
  match t.start path >>= (Path.steps path).foldlM t.enter with
  | .ok _ => .ok true
  | .error .nameTooLong => .error .nameTooLong
  | .error _ => .ok false

def disk (t : Tree) : Disk where
  read := t.read
  hasFolder := t.hasFolder
  checkWrite path := (t.placeToWrite path).map fun _ => ()

end Tree

end Reckoner.Disk
