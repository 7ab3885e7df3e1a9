import BracketTemplate.Path.Basic
import BracketTemplate.Script.Ast
import BracketTemplate.Script.Table

/-!
# The heap of a script

Everything that a running script can change, apart from where it stands: tables, local variables,
functions, files. Each kind of thing has a list of its own, and a value refers to a thing by its
place in that list. Nothing is ever taken off the heap.

A local variable is a cell. A function of the script keeps the cells of the variables around it, so
that a variable outlives the call that made it and is shared by all functions that use it.
-/

namespace BracketTemplate.Script

/-- A function of the script with the cells of its upvalues. -/
structure Closure where
  /-- The name that reports show of its chunk. -/
  chunk : Bytes
  proto : Proto
  upvalues : Array Nat
  deriving Inhabited

/-- What stands behind an open file. -/
inductive Stream where
  | standardInput
  | standardOutput
  | standardError
  /-- A file of the file tree. -/
  | named (path : Path)
  /-- A file of its own, which nobody else sees. -/
  | temporary (content : Bytes)
  deriving Inhabited, Repr

/-- An open or closed file. What is written to it is `unsaved` until it is flushed, unless every
write is a flush. -/
structure FileHandle where
  stream : Stream
  isOpen : Bool := true
  canRead : Bool := false
  canWrite : Bool := false
  /-- Whether everything is written behind the end. -/
  appends : Bool := false
  /-- The place that is read from or written to next. -/
  position : Nat := 0
  unsaved : Bytes := []
  buffered : Bool := true
  deriving Inhabited, Repr

/-- The state of a builtin function that has one. -/
inductive Native where
  /-- The matches of a pattern one after another: where to go on, and where the last match ended. -/
  | matches (text pattern : Bytes) (position : Nat) (lastEnd : Option Nat)
  /-- The lines of a file. -/
  | lines (file : Nat) (formats : List Val) (closes : Bool)
  /-- A coroutine that is resumed by a call. -/
  | wrapped (thread : Nat)
  deriving Inhabited

/-- The things that a script works on. -/
structure Heap where
  tables : Array Table := #[]
  cells : Array Val := #[]
  closures : Array Closure := #[]
  natives : Array Native := #[]
  files : Array FileHandle := #[]
  /-- The texts of the errors of host functions. -/
  failures : Array String := #[]
  /-- The table of the global variables. -/
  globals : Nat := 0
  /-- The metatable of all strings. -/
  strings : Nat := 0
  /-- The metatable of all files. -/
  fileMethods : Nat := 0
  /-- The files that are read from and written to unless another is named. -/
  input : Nat := 0
  output : Nat := 1
  /-- The directory that the names of files are confined to. -/
  root : Path := ⟨[]⟩
  /-- The state of the generator of pseudo-random numbers. -/
  seed : Nat := 0
  /-- Whether warnings are shown. -/
  warns : Bool := false
  deriving Inhabited

namespace Heap

/-- A table. -/
def table (h : Heap) (id : Nat) : Table := h.tables[id]?.getD {}

/-- Changes a table. -/
def onTable (h : Heap) (id : Nat) (f : Table → Table) : Heap :=
  { h with tables := h.tables.modify id f }

/-- Adds a table. -/
def newTable (h : Heap) (t : Table) : Nat × Heap :=
  (h.tables.size, { h with tables := h.tables.push t })

/-- The value of a local variable. -/
def cell (h : Heap) (id : Nat) : Val := h.cells[id]?.getD .nil

/-- Assigns to a local variable. -/
def setCell (h : Heap) (id : Nat) (v : Val) : Heap :=
  { h with cells := h.cells.setIfInBounds id v }

/-- Adds a local variable. -/
def newCell (h : Heap) (v : Val) : Nat × Heap :=
  (h.cells.size, { h with cells := h.cells.push v })

/-- Adds local variables, one after another. -/
def newCells (h : Heap) : List Val → Array Nat → Array Nat × Heap
  | [], done => (done, h)
  | v :: rest, done =>
    let (id, h) := h.newCell v
    h.newCells rest (done.push id)

/-- A function of the script. -/
def closure (h : Heap) (id : Nat) : Closure := h.closures[id]?.getD default

/-- Adds a function of the script. -/
def newClosure (h : Heap) (c : Closure) : Nat × Heap :=
  (h.closures.size, { h with closures := h.closures.push c })

/-- The state of a builtin function. -/
def native (h : Heap) (id : Nat) : Native := h.natives[id]?.getD default

/-- Adds a builtin function with a state. -/
def newNative (h : Heap) (n : Native) : Nat × Heap :=
  (h.natives.size, { h with natives := h.natives.push n })

/-- Changes the state of a builtin function. -/
def setNative (h : Heap) (id : Nat) (n : Native) : Heap :=
  { h with natives := h.natives.setIfInBounds id n }

/-- A file. -/
def file (h : Heap) (id : Nat) : FileHandle :=
  h.files[id]?.getD { stream := .standardInput, isOpen := false }

/-- Adds a file. -/
def newFile (h : Heap) (f : FileHandle) : Nat × Heap :=
  (h.files.size, { h with files := h.files.push f })

/-- Changes a file. -/
def setFile (h : Heap) (id : Nat) (f : FileHandle) : Heap :=
  { h with files := h.files.setIfInBounds id f }

/-- Adds the error of a host function. -/
def newFailure (h : Heap) (text : String) : Nat × Heap :=
  (h.failures.size, { h with failures := h.failures.push text })

/-- The text of the error of a host function. -/
def failure (h : Heap) (id : Nat) : String := h.failures[id]?.getD ""

/-- The metatable of a value, if it has one. -/
def metatable? (h : Heap) : Val → Option Nat
  | .table id => (h.table id).metatable
  | .str _ => some h.strings
  | .file _ => some h.fileMethods
  | _ => none

/-- The field of the metatable of a value for an event; `nil` when there is none. -/
def metafield (h : Heap) (v : Val) (event : String) : Val :=
  match h.metatable? v with
  | some id => (h.table id).getStr event
  | none => .nil

/-- The name of the type of a value as errors give it, which a metatable can change. -/
def typeText (h : Heap) (v : Val) : Bytes :=
  match v with
  | .table _ | .file _ =>
    match h.metafield v "__name" with
    | .str name => name
    | _ => utf8 v.typeName
  | _ => utf8 v.typeName

/-- A global variable, without the help of metatables. -/
def globalVar (h : Heap) (name : String) : Val := (h.table h.globals).getStr name

/-- Assigns to a global variable. -/
def setGlobal (h : Heap) (name : String) (v : Val) : Heap :=
  h.onTable h.globals fun t => t.setStr name v

end Heap

end BracketTemplate.Script
