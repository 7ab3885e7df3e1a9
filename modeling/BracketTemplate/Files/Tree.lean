import BracketTemplate.Files.Fault
import BracketTemplate.Path.Basic
import BracketTemplate.Text.Utf8

/-!
# File trees

The files that templates, pages and scripts live in: a finite assignment of files and directories to
places, a place being the list of names that leads to it from the root. Files carry their bytes and
the time of their last modification in nanoseconds. There are no links.

A path is looked up segment by segment from the root, or from the current directory when it is
relative (`FileTree.resolve`): every segment but the last has to lead to a directory, a segment `..`
goes one directory up, and a slash or `.` at the end asks for a directory. Reading (`readText`),
looking at the modification time (`modified`) and listing (`filesBelow`) all start from there; so do
the changes (`put`, `remove`, `touch`) that sessions and scripts make.
-/

namespace BracketTemplate

/-- A place in a file tree: the names from the root. -/
abbrev Place := List (List Char)

/-- What stands at a place. -/
inductive FileEntry where
  /-- A file with its bytes and the time of its last modification in nanoseconds. -/
  | file (content : Bytes) (modified : Int)
  | directory
  deriving DecidableEq, Repr, Inhabited

/-- Files and directories by place, with the directory that relative paths start from. -/
structure FileTree where
  entries : List (Place × FileEntry)
  cwd : Place
  /-- The time at which the directories were made. -/
  made : Int := 0
  deriving Repr, Inhabited

namespace FileTree

/-- What stands at a place; the root is a directory. -/
def find? (tree : FileTree) (place : Place) : Option FileEntry :=
  if place = [] then some .directory else tree.entries.lookup place

/-- The current directory as a path. -/
def cwdPath (tree : FileTree) : Path :=
  if tree.cwd = [] then ⟨['/']⟩ else ⟨tree.cwd.flatMap ('/' :: ·)⟩

/-- Follows segments from a place. -/
def walk (tree : FileTree) : Place → FileEntry → List (List Char) →
    Except FileFault (Place × FileEntry)
  | place, entry, [] => .ok (place, entry)
  | _, .file .., _ :: _ => .error .notADirectory
  | place, .directory, segment :: rest =>
    if segment = [] ∨ segment = ['.'] then tree.walk place .directory rest
    else if segment = ['.', '.'] then tree.walk place.dropLast .directory rest
    else if 255 < Utf8.size segment then .error .nameTooLong
    else
      match tree.find? (place ++ [segment]) with
      | none => .error .notFound
      | some entry => tree.walk (place ++ [segment]) entry rest

/-- What a path leads to. -/
def resolve (tree : FileTree) (path : Path) : Except FileFault (Place × FileEntry) :=
  if path.chars.contains '\x00' then .error .zeroByte
  else if path.chars = [] then .error .notFound
  else if 4096 ≤ Utf8.size path.chars then .error .nameTooLong
  else tree.walk (if path.isAbsolute then [] else tree.cwd) .directory path.segments

/-- The bytes of the file at a path. -/
def readBytes (tree : FileTree) (path : Path) : Except FileFault Bytes :=
  match tree.resolve path with
  | .ok (_, .file content _) => .ok content
  | .ok (_, .directory) => .error .isADirectory
  | .error e => .error e

/-- The text of the file at a path. -/
def readText (tree : FileTree) (path : Path) : Except FileFault (List Char) :=
  match tree.readBytes path with
  | .ok content =>
    match Utf8.decode? content with
    | .ok text => .ok text
    | .error _ => .error .invalidUtf8
  | .error e => .error e

/-- The time of the last modification of what a path leads to; for a directory that is the time at
which it was made. -/
def modified (tree : FileTree) (path : Path) : Except FileFault Int :=
  match tree.resolve path with
  | .ok (_, .file _ modified) => .ok modified
  | .ok (_, .directory) => .ok tree.made
  | .error e => .error e

/-- Whether a path leads to a directory. -/
def isDirectory (tree : FileTree) (path : Path) : Bool :=
  match tree.resolve path with
  | .ok (_, .directory) => true
  | _ => false

/-- Whether a path leads to a file. -/
def isFile (tree : FileTree) (path : Path) : Bool :=
  match tree.resolve path with
  | .ok (_, .file ..) => true
  | _ => false

/-- Whether a path leads anywhere. -/
def contains (tree : FileTree) (path : Path) : Bool :=
  match tree.resolve path with
  | .ok _ => true
  | .error _ => false

/-- The places of files below a directory, as seen from it. -/
def filesBelow (tree : FileTree) (place : Place) : List Place :=
  tree.entries.filterMap fun (p, entry) =>
    match entry with
    | .file .. => if place.isPrefixOf p then some (p.drop place.length) else none
    | .directory => none

/-- The places of all files. -/
def files (tree : FileTree) : List Place := tree.filesBelow []

/-! ## Changes -/

/-- The tree with another entry at a place. -/
def set (tree : FileTree) (place : Place) (entry : FileEntry) : FileTree :=
  { tree with
    entries :=
      if tree.entries.any (·.1 = place) then
        tree.entries.map fun (p, e) => if p = place then (p, entry) else (p, e)
      else tree.entries ++ [(place, entry)] }

/-- The tree with directories at a place and above it. A file that stands in the way is in the way
of a directory below it, too. -/
def makeDirectories (tree : FileTree) : Place → List (List Char) → Except FileFault FileTree
  | _, [] => .ok tree
  | above, name :: rest =>
    match tree.find? (above ++ [name]) with
    | some .directory => makeDirectories tree (above ++ [name]) rest
    | some (.file ..) => .error (if rest = [] then .exists else .notADirectory)
    | none => (tree.set (above ++ [name]) .directory).makeDirectories (above ++ [name]) rest

/-- The place that a path names, whether or not something stands there; segments `..` go up. -/
def placeOf (tree : FileTree) (path : Path) : Place :=
  path.components.foldl (fun place component =>
    match component with
    | .root => []
    | .current => place
    | .parent => place.dropLast
    | .name segment => place ++ [segment]) (if path.isAbsolute then [] else tree.cwd)

/-- The tree with a directory at a path. -/
def putDirectory (tree : FileTree) (path : Path) : Except FileFault FileTree :=
  tree.makeDirectories [] (tree.placeOf path)

/-- The tree with a file at a path, in place of the one there, and with its directories. -/
def put (tree : FileTree) (path : Path) (content : Bytes) (modified : Int) :
    Except FileFault FileTree := do
  let place := tree.placeOf path
  let tree ← tree.makeDirectories [] place.dropLast
  match tree.find? place with
  | some .directory => .error .isADirectory
  | _ => return tree.set place (.file content modified)

/-- The tree without what stands at a path and below it. -/
def remove (tree : FileTree) (path : Path) : Except FileFault FileTree := do
  let (place, _) ← tree.resolve path
  return { tree with entries := tree.entries.filter fun (p, _) => !place.isPrefixOf p }

/-- The tree with another modification time of the file at a path. -/
def touch (tree : FileTree) (path : Path) (modified : Int) : Except FileFault FileTree := do
  match ← tree.resolve path with
  | (place, .file content _) => return tree.set place (.file content modified)
  | (_, .directory) => .error .isADirectory

end FileTree

end BracketTemplate
