import BracketTemplate.Script.Chunk
import BracketTemplate.Script.Library.Argument

/-!
# The base functions

The functions that stand among the global variables: errors and guarded calls, traversal, access to
tables without the help of metatables, and conversions between texts and numbers.

An error that is a text starts with the place it is raised at. A guarded call gives `true` and the
results, or `false` and the error.
-/

namespace BracketTemplate.Script.Base

/-! ## Errors -/

/-- Raises an error, with the place of a call some levels up the stack in front of a text. -/
def raise (a : Arguments) (error : Val) (level : Int64) : Act (List Val) := do
  match error with
  | .str s =>
    if level ≤ 0 then .throw error
    else if level == 1 then a.site.throw s
    else
      match ← Act.control (.place level.toInt.toNat) with
      | .ok (.str place :: _) => .throw (.str (place ++ s))
      | _ => .throw error
  | _ => .throw error

/-- The results of a guarded call. -/
def guarded : Except Val (List Val) → List Val
  | .ok values => .bool true :: values
  | .error e => [.bool false, e]

/-! ## Loading scripts -/

/-- The name that reports show of a script which is loaded under a name: the name behind a mark, or
the first line of the script itself. -/
def shownName (name : Bytes) : Bytes :=
  match name with
  | 61 :: rest => rest.take 59
  | 64 :: rest => if rest.length ≤ 59 then rest else utf8 "..." ++ rest.drop (rest.length - 56)
  | _ =>
    let line := name.takeWhile (· != 10)
    let shown :=
      if name.length < 45 && line.length == name.length then name
      else line.take 45 ++ utf8 "..."
    utf8 "[string \"" ++ shown ++ utf8 "\"]"

/-- The pieces of a script that a function gives, until it gives none. -/
def readPieces (reader : Val) : Nat → Bytes → Act (Except Val Bytes)
  | 0, script => pure (.ok script)
  | fuel + 1, script => do
    match ← Act.guard reader [] none with
    | .error e => return .error e
    | .ok values =>
      match values.headD .nil with
      | .nil => return .ok script
      | .str [] => return .ok script
      | v =>
        match v.toText? with
        | some piece => readPieces reader fuel (script ++ piece)
        | none => return .error (.ofString "reader function must return a string")

/-- A function that runs a script, or the wording of what is wrong with it. -/
def loadScript (script name mode : Bytes) (globals : Val) : Act (List Val) :=
  let kind := if script.head? == some 27 then "binary" else "text"
  if !mode.contains (if kind == "binary" then 98 else 116) then
    return [.nil, .str (utf8 s!"attempt to load a {kind} chunk (mode is '" ++ mode ++ utf8 "')")]
  else if kind == "binary" then
    return [.nil, .str (shownName name ++ utf8 ": bad binary format (truncated chunk)")]
  else
    let shown := shownName name
    match Chunk.load shown script with
    | .error f => return [.nil, .str (f.wording shown)]
    | .ok chunk => .update fun h =>
      let (cell, h) := h.newCell globals
      let (id, h) := h.newClosure { chunk := shown, proto := chunk.proto, upvalues := #[cell] }
      ([.closure id], h)

/-- Loads a script from a text or from a function that gives its pieces. -/
def load (a : Arguments) : Act (List Val) := do
  let mode ← a.optStr 3 (utf8 "bt")
  let globals ← match a.get? 4 with
    | some v => pure v
    | none => .read fun h => .table h.globals
  match (a.get 1).toText? with
  | some script => loadScript script (← a.optStr 2 script) mode globals
  | none =>
    let name ← a.optStr 2 (utf8 "=(load)")
    let reader ← a.function 1
    match ← readPieces reader 1000000000 [] with
    | .ok script => loadScript script name mode globals
    | .error e => return [.nil, e]

/-! ## Numbers -/

/-- The digit that a byte stands for in the bases up to `36`. -/
def digit? (b : UInt8) : Option Nat :=
  if Byte.isDigit b then some (b.toNat - 48)
  else if Byte.isAlpha b then some ((Byte.toLower b).toNat - 87)
  else none

/-- The integer that digits in some base stand for, wrapping around, with white space around
them. -/
def ofDigits? (base : Nat) (text : Bytes) : Option Int64 :=
  let text := text.dropWhile Byte.isSpace
  let (negative, text) := match text with
    | 45 :: rest => (true, rest)
    | rest => (false, rest)
  let digits := text.takeWhile fun b => Byte.isDigit b || Byte.isAlpha b
  let rest := text.dropWhile fun b => Byte.isDigit b || Byte.isAlpha b
  match digits.mapM digit? with
  | some (d :: ds) =>
    if (d :: ds).any (base ≤ ·) || !rest.all Byte.isSpace then none
    else
      let n := Int64.ofNat ((d :: ds).foldl (fun n d => n * base + d) 0)
      some (if negative then -n else n)
  | _ => none

/-- The number that a value stands for. -/
def toNumber (a : Arguments) : Act (List Val) := do
  if a.isBlank 2 then
    let v ← a.any 1
    return [(v.toNumber?.map Val.ofNumber).getD .nil]
  else
    let base ← a.int 2
    match a.get 1 with
    | .str s =>
      if base < 2 || 36 < base then a.fail 2 (utf8 "base out of range")
      else return [((ofDigits? base.toInt.toNat s).map Val.int).getD .nil]
    | _ => a.failType 1 "string"

/-! ## Tables -/

/-- Gives the metatable of a value, or what the metatable shows instead. -/
def getMetatable (a : Arguments) : Act (List Val) := do
  let v ← a.any 1
  match v with
  | .failure _ => return [.bool false]
  | _ => .read fun h =>
    match h.metatable? v with
    | none => [.nil]
    | some id =>
      match h.metafield v "__metatable" with
      | .nil => [.table id]
      | shown => [shown]

/-- Gives a table another metatable, unless the one it has is protected. -/
def setMetatable (a : Arguments) : Act (List Val) := do
  let id ← a.table 1
  let given : Option (Option Nat) := match a.get? 2 with
    | some .nil => some none
    | some (.table m) => some (some m)
    | _ => none
  match given with
  | none => a.failType 2 "nil or table"
  | some metatable =>
    if !(← Act.read fun h => (h.metafield (.table id) "__metatable").isNil) then
      a.site.throw (utf8 "cannot change a protected metatable")
    .modify fun h => h.onTable id fun t => { t with metatable }
    return [.table id]

/-- The key and value behind a key. -/
def next (a : Arguments) : Act (List Val) := do
  let id ← a.table 1
  match ← Act.read fun h => (h.table id).next (a.get 2) with
  | .ok (some (key, value)) => return [key, value]
  | .ok none => return [.nil]
  | .error () => .throw (.ofString "invalid key to 'next'")

/-- What a traversal of a value starts from. -/
def pairs (a : Arguments) : Act (List Val) := do
  let v ← a.any 1
  let fn ← Act.read fun h => h.metafield v "__pairs"
  if fn.isNil then return [.builtin (.base .next), v, .nil]
  else
    match ← Act.call fn [v] {} with
    | x :: y :: z :: _ => return [x, y, z]
    | [x, y] => return [x, y, .nil]
    | [x] => return [x, .nil, .nil]
    | [] => return [.nil, .nil, .nil]

/-- The arguments from a place on, which may be counted from the end. -/
def select (a : Arguments) : Act (List Val) := do
  match a.get 1 with
  | .str [35] => giveNat (a.count - 1)
  | _ =>
    let n := (← a.int 1).toInt
    let place := if n < 0 then Int.ofNat a.count + n else n
    if place < 1 then a.fail 1 (utf8 "index out of range")
    else return a.values.drop place.toNat

/-! ## The functions -/

/-- Collects garbage. There is nothing to collect, so only the answers are given. -/
def collectGarbage (a : Arguments) : Act (List Val) := do
  let n ← a.option 1 (some "collect")
    ["stop", "restart", "collect", "count", "step", "setpause", "setstepmul", "isrunning",
      "generational", "incremental"]
  match n with
  | 3 => return [.float 22.5]
  | 4 | 7 => giveBool true
  | 5 => giveNat 200
  | 6 => giveNat 100
  | 8 | 9 => return [.ofString "incremental"]
  | _ => giveNat 0

/-- Gives a warning, which is shown when warnings are on. A warning of a single part that starts
with an at sign turns them on or off. -/
def warn (a : Arguments) : Act (List Val) := do
  let _ ← a.str 1
  let parts ← (List.range a.count).mapM fun i => a.str (i + 1)
  match parts with
  | [64 :: rest] => do
    if rest == utf8 "on" then Act.modify fun h => { h with warns := true }
    if rest == utf8 "off" then Act.modify fun h => { h with warns := false }
  | _ =>
    if ← Act.read (·.warns) then
      Act.ask (.console .error (utf8 "Lua warning: " ++ parts.flatten ++ [10]))
  return []

/-- Runs a base function. -/
def run (f : BaseFunction) (a : Arguments) : Act (List Val) :=
  match f with
  | .assert => do
    if (a.get 1).truthy then return a.values
    else
      let _ ← a.any 1
      raise a ((a.get? 2).getD (.ofString "assertion failed!")) 1
  | .collectgarbage => collectGarbage a
  | .error => do raise a (a.get 1) (← a.optInt 2 1)
  | .getmetatable => getMetatable a
  | .ipairs => do return [.builtin (.base .ipairsStep), ← a.any 1, .int 0]
  | .ipairsStep => do
    let i := (← a.int 2) + 1
    match ← Operation.index {} (a.get 1) (.int i) with
    | .nil => return [.nil]
    | v => return [.int i, v]
  | .load => load a
  | .next => next a
  | .pairs => pairs a
  | .pcall =>
    match a.values with
    | [] => .throw (.ofString "not enough arguments to pcall")
    | fn :: args => do return guarded (← Act.guard fn args none)
  | .xpcall =>
    match a.values with
    | fn :: handler :: args => do return guarded (← Act.guard fn args (some handler))
    | _ => .throw (.ofString "not enough arguments to xpcall")
  | .rawequal => do giveBool ((← a.any 1).rawEqual (← a.any 2))
  | .rawget => do
    let id ← a.table 1
    let key ← a.any 2
    .read fun h => [(h.table id).get key]
  | .rawlen =>
    match a.get 1 with
    | .table id => .read fun h => [.ofNat (h.table id).length]
    | .str s => giveNat s.length
    | _ => a.failType 1 "table or string"
  | .rawset => do
    let id ← a.table 1
    let key ← a.any 2
    let value ← a.any 3
    Operation.rawSet {} id key value
    return [.table id]
  | .select => select a
  | .setmetatable => setMetatable a
  | .tonumber => toNumber a
  | .tostring => do giveStr (← Operation.toText a.site (← a.any 1))
  | .type => do return [.ofString (← a.any 1).typeName]
  | .warn => warn a

/-- The functions under their names. -/
def names : List (String × BaseFunction) :=
  [("assert", .assert), ("collectgarbage", .collectgarbage), ("error", .error),
    ("getmetatable", .getmetatable), ("ipairs", .ipairs), ("load", .load), ("next", .next),
    ("pairs", .pairs), ("pcall", .pcall), ("rawequal", .rawequal), ("rawget", .rawget),
    ("rawlen", .rawlen), ("rawset", .rawset), ("select", .select), ("setmetatable", .setmetatable),
    ("tonumber", .tonumber), ("tostring", .tostring), ("type", .type), ("warn", .warn),
    ("xpcall", .xpcall)]

end BracketTemplate.Script.Base
