import BracketTemplate.Script.Machine

/-!
# The heap that a script starts with

The global variables and what stands behind them: the libraries as tables of their functions, the
metatables of strings and files, the standard files, and the functions that reach the template. A
script cannot load other files, run programs, or remove and rename files; the functions for that are
not there.

Of the table `package` only what is loaded is kept. The language also has `searchers`, `searchpath`
and `loadlib`, and search paths in `path` and `cpath`; here the functions are missing and the paths
are blank, so nothing in this library speaks about scripts that search for modules.
-/

namespace BracketTemplate.Script

/-- The functions of a library as fields. -/
def functionFields {α : Type} (names : List (String × α)) (builtin : α → Builtin) :
    List (String × Val) :=
  names.map fun (name, f) => (name, .builtin (builtin f))

/-- Adds a table with some fields. -/
def Heap.addTable (h : Heap) (fields : List (String × Val)) : Val × Heap :=
  let (id, h) := h.newTable (.ofFields fields)
  (.table id, h)

/-- Adds tables with some fields, under their names. -/
def Heap.addTables (h : Heap) : List (String × List (String × Val)) → List (String × Val) × Heap
  | [] => ([], h)
  | (name, fields) :: rest =>
    let (v, h) := h.addTable fields
    let (vs, h) := h.addTables rest
    ((name, v) :: vs, h)

/-- The libraries by name. -/
def libraries : List (String × List (String × Val)) :=
  [("coroutine", functionFields Coroutines.names .coroutine),
    ("table", functionFields Tables.names .table),
    ("io", functionFields Files.names .io
      ++ [("stdin", .file 0), ("stdout", .file 1), ("stderr", .file 2)]),
    ("os", functionFields Time.names .os),
    ("string", functionFields Strings.names .string),
    ("math", functionFields Numbers.names .math ++ Numbers.constants),
    ("utf8", functionFields Unicode.names .utf8 ++ [("charpattern", .str Unicode.charPattern)])]

/-- The number of the table behind a value. -/
def Val.tableId : Val → Nat
  | .table id => id
  | _ => 0

/-- The table under a name. -/
def tableNamed (name : String) (tables : List (String × Val)) : Val :=
  (tables.lookup name).getD .nil

/-- The events of strings, which index their library. -/
def stringEvents (library : Val) : List (String × Val) :=
  ("__index", library)
    :: Strings.events.map fun event => (event, .builtin (.string (.arithmetic event)))

/-- The heap that a script starts with, `root` being the directory that the names of files are
confined to. The table `package` has no `searchers`, no `searchpath` and no `loadlib`, and its paths
are blank: searching for modules is left out. -/
def Heap.initial (root : Path) : Heap :=
  let h : Heap := { files := Files.standardFiles.toArray, root }
  let (globals, h) := h.newTable {}
  let (tables, h) := h.addTables libraries
  let (strings, h) := h.addTable (stringEvents (tableNamed "string" tables))
  let (methods, h) := h.addTable (functionFields Files.methods .io)
  let (files, h) := h.addTable
    ([("__index", methods), ("__name", .ofString "FILE*")] ++ functionFields Files.events .io)
  let (loaded, h) := h.addTable (("_G", .table globals) :: tables)
  let (preload, h) := h.addTable []
  let (package, h) := h.addTable
    [("loaded", loaded), ("preload", preload), ("path", .ofString ""), ("cpath", .ofString ""),
      ("config", .ofString "/\n;\n?\n!\n-\n")]
  let entries := [("_G", .table globals), ("_VERSION", .ofString "Lua 5.4"), ("package", package)]
    ++ tables ++ functionFields Base.names .base ++ functionFields Host.names .host
  let h := h.onTable globals fun _ => .ofFields entries
  { h with globals, strings := strings.tableId, fileMethods := files.tableId }

/-- Adds global variables for values of the template. -/
def Heap.withBindings (h : Heap) (bindings : List (String × Value)) : Heap :=
  bindings.foldl (fun h (name, v) =>
    let (x, h) := h.import v
    h.setGlobal name x) h

/-- Adds global variables for registered functions. -/
def Heap.withFunctions (h : Heap) (names : List String) : Heap :=
  names.foldl (fun h name => h.setGlobal name (.builtin (.host (.registered name)))) h

/-- The function that runs a chunk. -/
def Heap.addChunk (h : Heap) (chunk : Chunk) : Val × Heap :=
  let (cell, h) := h.newCell (.table h.globals)
  let (id, h) := h.newClosure { chunk := chunk.name, proto := chunk.proto, upvalues := #[cell] }
  (.closure id, h)

/-- Calls the function of a chunk. When it fails the report is the result. What waits to be written
to files is written in either case. -/
def runScript (fn : Val) : Act (List Val) := do
  let report ← match ← Act.guard fn [] none with
    | .ok _ => pure []
    | .error e => do
      let report ← reportOf e
      pure [Val.ofString report]
  Files.finish
  return report

/-- The machine that runs a chunk. -/
def Machine.ofChunk (chunk : Chunk) (h : Heap) : Machine :=
  let (fn, h) := h.addChunk chunk
  .ofAct (runScript fn) h

/-- The report of a script that has come to its end; none when it did not fail. -/
def reportOfResult : Except Val (List Val) → Option String
  | .ok (.str report :: _) => some report.text
  | .ok _ => none
  | .error _ => some (errorReport (utf8 "error in error handling"))

end BracketTemplate.Script
