import BracketTemplate.Files.Tree

/-!
# Writing to files

Scripts write to files that lie in directories which are there already: a file is made, made empty,
or written over from a place on. Every change gives the file the time of the change.
-/

namespace BracketTemplate.FileTree

/-- The place of a path whose directory is there. The path names a file, so it ends with a name. -/
def placeInDirectory (tree : FileTree) (path : Path) : Except FileFault Place :=
  match path.segments.getLast? with
  | none | some [] => .error .isADirectory
  | some name =>
    if path.chars.contains '\x00' then .error .zeroByte
    else if 255 < Utf8.size name then .error .nameTooLong
    else
      match tree.walk (if path.isAbsolute then [] else tree.cwd) .directory
        path.segments.dropLast with
      | .ok (place, .directory) => .ok (place ++ [name])
      | .ok (_, .file ..) => .error .notADirectory
      | .error e => .error e

/-- The tree with an empty file at a path. -/
def truncate (tree : FileTree) (path : Path) (time : Int) : Except FileFault FileTree :=
  match tree.resolve path with
  | .ok (place, .file ..) => .ok (tree.set place (.file [] time))
  | .ok (_, .directory) => .error .isADirectory
  | .error .notFound => do
    let place ← tree.placeInDirectory path
    return tree.set place (.file [] time)
  | .error e => .error e

/-- The tree with a file at a path, which is empty unless it is there. -/
def ensureFile (tree : FileTree) (path : Path) (time : Int) : Except FileFault FileTree :=
  match tree.resolve path with
  | .ok (_, .file ..) => .ok tree
  | _ => tree.truncate path time

/-- Bytes with others written over them from a place on. -/
def overwrite (content : Bytes) (place : Nat) (piece : Bytes) : Bytes :=
  let front := content.take place
  front ++ List.replicate (place - front.length) 0 ++ piece ++ content.drop (place + piece.length)

/-- The tree with bytes written to the file at a path, from a place on or behind its end. -/
def writeAt (tree : FileTree) (path : Path) (place : Option Nat) (piece : Bytes) (time : Int) :
    Except FileFault FileTree :=
  match tree.resolve path with
  | .ok (p, .file content _) =>
    .ok (tree.set p (.file (overwrite content (place.getD content.length) piece) time))
  | .ok (_, .directory) => .error .isADirectory
  | .error e => .error e

end BracketTemplate.FileTree
