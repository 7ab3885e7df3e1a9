import BracketTemplate.Script.Library.HostArgument
import BracketTemplate.Value.Basic

/-!
# Values of templates and values of scripts

A binding enters a script as a value of the script: a list becomes a sequence and a map a table with
texts as keys. On the way back a table becomes a list when its keys are the integers from `1` to its
length, and a map otherwise; the keys of a map are the texts of the keys of the table, in the order
of a traversal. What has no counterpart becomes its text, and the text of a value is what the global
function `tostring` makes of it.

A table that contains itself has no counterpart, and neither has one that is nested too deeply.
-/

namespace BracketTemplate.Script

/-! ## Into a script -/

mutual

/-- The value of a script for a value of a template. -/
def Heap.import (h : Heap) : Value → Val × Heap
  | .nil => (.nil, h)
  | .bool b => (.bool b, h)
  | .int i => (.int i, h)
  | .float x => (.float x, h)
  | .str s => (.ofString s, h)
  | .list items =>
    let (table, h) := h.importItems (.withRoom items.length 0) 1 items
    let (id, h) := h.newTable table
    (.table id, h)
  | .map entries =>
    let (table, h) := h.importEntries (.withRoom 0 entries.length) entries
    let (id, h) := h.newTable table
    (.table id, h)

/-- Puts the items of a list under the indices from `i` on. -/
def Heap.importItems (h : Heap) (t : Table) (i : Nat) : List Value → Table × Heap
  | [] => (t, h)
  | v :: rest =>
    let (x, h) := h.import v
    h.importItems (t.setInt i x) (i + 1) rest

/-- Puts the entries of a map under their names. -/
def Heap.importEntries (h : Heap) (t : Table) : List (String × Value) → Table × Heap
  | [] => (t, h)
  | (name, v) :: rest =>
    let (x, h) := h.import v
    h.importEntries (t.setStr name x) rest

end

/-! ## Text -/

/-- A global variable as the host sees it. -/
def globalField (name : String) : Act Val := do
  Operation.index {} (.table (← Act.read (·.globals))) (.ofString name)

/-- Calls a function of the script from the host. -/
def callFromHost (v : Val) (args : List Val) : Act (List Val) := do
  if Operation.isFunction v then
    match ← Act.guard v args none with
    | .ok values => return values
    | .error e => failReported e
  else .failHost (conversionFault v "function" none)

/-- The text that the first of some values is converted to. -/
def hostResult (values : List Val) : Act String :=
  match (values.headD .nil).hostText with
  | .ok text => pure text
  | .error wording => .failHost wording

/-- The text of a value: nothing for `nil`, a text itself, and for all else what the global function
`tostring` makes of it. -/
def stringify (v : Val) : Act String := do
  match v with
  | .nil => return ""
  | .str s => return s.text
  | v =>
    hostResult (← callFromHost (← globalField "tostring") [v])

/-! ## Out of a script -/

/-- How deeply tables can be nested. -/
def maxNesting : Nat := 128

/-- Whether a table is a sequence: its keys are as many as its length says. -/
def Table.isSequence (t : Table) : Bool := t.length != 0 && t.pairs.length == t.length

/-- Converts values one after another. -/
def exportItems (convert : Val → Act Value) : List Val → Act (List Value)
  | [] => pure []
  | v :: rest => do
    let x ← convert v
    return x :: (← exportItems convert rest)

/-- Converts keys and values one after another; `done` are the entries so far. -/
def exportEntries (convert : Val → Act Value) :
    List (Val × Val) → List (String × Value) → Act (List (String × Value))
  | [], done => pure done
  | (key, v) :: rest, done => do
    let name ← stringify key
    let x ← convert v
    exportEntries convert rest (Value.insert name x done)

/-- The items of a sequence, each looked up when its turn comes. -/
def exportSequence (id : Nat) (convert : Val → Act Value) : Nat → Nat → Act (List Value)
  | 0, _ => pure []
  | count + 1, i => do
    let x ← convert (← Act.read fun h => (h.table id).getInt i)
    return x :: (← exportSequence id convert count (i + 1))

/-- The value of a template for a value of the script; `around` are the tables around it, and `room`
says how many more there may be. -/
def exportWithin : Nat → List Nat → Val → Act Value
  | room, around, .table id => do
    if around.contains id then .failHost "表中存在循环引用"
    else
      match room with
      | 0 => .failHost s!"表嵌套超过 {maxNesting} 层"
      | room + 1 =>
        let table ← Act.read (·.table id)
        let convert := exportWithin room (id :: around)
        if table.isSequence then return .list (← exportSequence id convert table.length 1)
        else return .map (← exportEntries convert table.pairs [])
  | _, _, .nil => pure .nil
  | _, _, .bool b => pure (.bool b)
  | _, _, .int i => pure (.int i)
  | _, _, .float x => pure (.float x)
  | _, _, .str s => pure (.str s.text)
  | _, _, v => do return .str (← stringify v)

/-- The value of a template for a value of the script. -/
def Val.export (v : Val) : Act Value := exportWithin maxNesting [] v

/-- Converts the arguments of a call. -/
def exportAll (vs : List Val) : Act (List Value) := exportItems Val.export vs

end BracketTemplate.Script
