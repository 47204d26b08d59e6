import Interleaving.Data.SortedMap
import Interleaving.Files.Path

/-!
# File trees

Files and directories held in memory, below a working directory that always exists.
-/

namespace Interleaving

/-- Files and directories. The key of an entry is its place below the working directory. -/
structure FileTree where
  /-- A file with its text, or a directory, which has none. -/
  entries : SortedMap String (Option String)
deriving DecidableEq

namespace FileTree

/-- The tree without files. -/
def empty : FileTree := ⟨.empty⟩

/-- What stands at a place. -/
inductive Kind where
  | directory
  | file (text : String)

/-- The names on the way from the working directory to a place. A way that leaves the working
directory starts with `..`, and one from the root with `/`. -/
abbrev Place := List String

/-- The key of a place. -/
def key (place : Place) : String := "/".intercalate place

/-- Whether a place is a directory that exists in any case. -/
def isGiven (place : Place) : Bool := place.all (· == "..") || place == ["/"]

/-- What stands at a place, if anything does. -/
def kind? (t : FileTree) (place : Place) : Option Kind :=
  if isGiven place then some .directory
  else
    match t.entries.get? (key place) with
    | some (some text) => some (.file text)
    | some none => some .directory
    | none => none

/-- The place that a name leads to. -/
def step (t : FileTree) (place : Place) (name : String) : Except FileError Place :=
  match t.kind? place with
  | none => .error .notFound
  | some (.file _) => .error .notADirectory
  | some .directory =>
    if name = "." then .ok place
    else if name = ".." then
      .ok (if place == ["/"] then place
        else if place.all (· == "..") then place ++ [".."]
        else place.dropLast)
    else if TreePath.maxNameLength < name.utf8ByteSize then .error .nameTooLong
    else .ok (place ++ [name])

/-- The place of a path. All that is passed must be a directory. -/
def locate (t : FileTree) (p : TreePath) : Except FileError Place :=
  p.names.foldlM t.step (if p.absolute then ["/"] else [])

/-- The text of a file. -/
def read (t : FileTree) (path : String) : Except FileError String := do
  let p ← TreePath.parse path
  match t.kind? (← t.locate p) with
  | some (.file text) => if p.slash then throw .notADirectory else return text
  | some .directory => throw .isADirectory
  | none => throw .notFound

/-- Makes or replaces a file. -/
def write (t : FileTree) (path text : String) : Except FileError FileTree := do
  let p ← TreePath.parse path
  let place ← t.locate p
  match t.kind? place with
  | some .directory => throw .isADirectory
  | _ => if p.slash then throw .isADirectory else return ⟨t.entries.insert (key place) (some text)⟩

/-- Makes a directory, unless it exists. -/
def makeDirectory (t : FileTree) (p : TreePath) : Except FileError FileTree := do
  let place ← t.locate p
  match t.kind? place with
  | some .directory => return t
  | some (.file _) => throw .alreadyExists
  | none => return ⟨t.entries.insert (key place) none⟩

/-- A change that may be refused and then changes nothing. -/
def attempt (t : FileTree) : Except FileError FileTree → Except FileError Unit × FileTree
  | .ok t => (.ok (), t)
  | .error error => (.error error, t)

/-- Makes a directory. If that fails because one on the way is missing, those above it are made
first, of which the nearest comes first in the list. Those that are made stay if another one cannot
be. -/
def makeBelow (t : FileTree) (p : TreePath) :
    List TreePath → Except FileError Unit × FileTree
  | [] => t.attempt (t.makeDirectory p)
  | parent :: above =>
    match t.makeDirectory p with
    | .error .notFound =>
      match t.makeBelow parent above with
      | (.ok (), t) => t.attempt (t.makeDirectory p)
      | refused => refused
    | r => t.attempt r

/-- Makes a directory and those above it. -/
def createDirectories (t : FileTree) (path : String) : Except FileError Unit × FileTree :=
  if path.isEmpty then (.ok (), t)
  else
    match TreePath.parse path with
    | .ok p => t.makeBelow p p.above
    | .error error => (.error error, t)

/-- Whether a path leads to a directory. -/
def isDirectory (t : FileTree) (path : String) : Bool :=
  match (do t.locate (← TreePath.parse path)).toOption.bind t.kind? with
  | some .directory => true
  | _ => false

/-- A path without its last name. -/
def parent (path : String) : String := "/".intercalate (path.splitOn "/").dropLast

/-- The tree of some files, given by their paths and texts, with the directories above them. A file
that cannot be made is left out. -/
def ofFiles (files : List (String × String)) : FileTree :=
  files.foldl (fun t (path, text) =>
    let t := (t.createDirectories (parent path)).2
    (t.write path text).toOption.getD t) empty

/-- The files below the working directory, with their texts. -/
def files (t : FileTree) : List (String × String) :=
  t.entries.toList.filterMap fun (path, text) =>
    if path.startsWith "/" || path.startsWith "../" then none else text.map (path, ·)

/-- A tree as a place where files are kept. -/
def store : FileStore (StateM FileTree) where
  read path := fun t => (t.read path, t)
  write path text := fun t => t.attempt (t.write path text)
  createDirectories path := fun t => t.createDirectories path
  isDirectory path := fun t => (t.isDirectory path, t)

end FileTree

end Interleaving
