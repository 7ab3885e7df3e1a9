import BracketTemplate.Script.Act

/-!
# Operations on values

What the operators of the language do. Each has a meaning of its own on the values it is made for;
on other values a metatable can give it one, by a function under the name of the operation; and
where neither does, the operation fails and says which of its operands is to blame.

Integer arithmetic wraps around, and division and remainder go to the floor. An operation on an
integer and a double is one on doubles. Bitwise operations want integers and take doubles that are
equal to one.
-/

namespace BracketTemplate.Script

/-! ## Numbers -/

/-- The remainder that has the sign of the divisor. -/
def floorRemainder (a b : Float) : Float :=
  let r := Binary64.truncatedRemainder a b
  if (if 0 < r then b < 0 else r < 0 && b != r) then r + b else r

/-- The bits of an integer shifted to the left, or to the right by a negative distance. -/
def shiftLeft (a distance : Int64) : Int64 :=
  let d := distance.toInt
  if d ≤ -64 || 64 ≤ d then 0
  else if d < 0 then (a.toUInt64 >>> UInt64.ofNat d.natAbs).toInt64
  else (a.toUInt64 <<< UInt64.ofNat d.toNat).toInt64

/-- An arithmetic operation on integers, for the operations that stay with integers. An error is a
division by zero. -/
def intArithmetic? (op : BinaryOp) (a b : Int64) : Option (Except Bytes Int64) :=
  match op with
  | .add => some (.ok (a + b))
  | .sub => some (.ok (a - b))
  | .mul => some (.ok (a * b))
  | .idiv =>
    some (if b == 0 then .error (utf8 "attempt to divide by zero")
      else .ok (Int64.ofInt (Int.fdiv a.toInt b.toInt)))
  | .mod =>
    some (if b == 0 then .error (utf8 "attempt to perform 'n%0'")
      else .ok (Int64.ofInt (Int.fmod a.toInt b.toInt)))
  | _ => none

/-- An arithmetic operation on doubles. -/
def floatArithmetic (op : BinaryOp) (a b : Float) : Float :=
  match op with
  | .add => a + b
  | .sub => a - b
  | .mul => a * b
  | .div => a / b
  | .pow => if b == 2.0 then a * a else a.pow b
  | .idiv => (a / b).floor
  | .mod => floorRemainder a b
  | _ => a

/-- An arithmetic operation on numbers. -/
def arithmeticOn (op : BinaryOp) (a b : Number) : Except Bytes Val :=
  let floats := .ok (.float (floatArithmetic op (Val.numberToFloat a) (Val.numberToFloat b)))
  match a, b with
  | .int i, .int j =>
    match intArithmetic? op i j with
    | some result => result.map .int
    | none => floats
  | _, _ => floats

/-- A bitwise operation. -/
def bitwiseOn (op : BinaryOp) (a b : Int64) : Int64 :=
  match op with
  | .band => a &&& b
  | .bor => a ||| b
  | .bxor => a ^^^ b
  | .shl => shiftLeft a b
  | _ => shiftLeft a (-b)

/-- Whether an operation works on bits. -/
def BinaryOp.isBitwise : BinaryOp → Bool
  | .band | .bor | .bxor | .shl | .shr => true
  | _ => false

/-- The name under which a metatable gives an operation a meaning. -/
def BinaryOp.event : BinaryOp → String
  | .add => "__add"
  | .sub => "__sub"
  | .mul => "__mul"
  | .div => "__div"
  | .idiv => "__idiv"
  | .mod => "__mod"
  | .pow => "__pow"
  | .band => "__band"
  | .bor => "__bor"
  | .bxor => "__bxor"
  | .shl => "__shl"
  | .shr => "__shr"
  | .eq | .ne => "__eq"
  | .lt | .gt => "__lt"
  | .le | .ge => "__le"

/-- A number as a value of the number type. -/
def Val.number? : Val → Option Number
  | .int i => some (.int i)
  | .float x => some (.float x)
  | _ => none

namespace Operation

/-- What an error can say about an operand. -/
abbrev Name := Option (String × Bytes)

/-- Fails because a value does not suit an operation. -/
def failType {α : Type} (site : Site) (what : String) (v : Val) (name : Name) : Act α := fun h =>
  site.throw
    (utf8 s!"attempt to {what} a " ++ h.typeText v ++ utf8 " value" ++ Site.shownName name) h

/-- Calls a function that a metatable gives for an event, and takes its first result. -/
def callEvent (site : Site) (event : String) (fn : Val) (args : List Val) : Act Val := do
  let name := some ("metamethod", utf8 ((event.drop 2).toString))
  return (← Act.call fn args { site with name }).headD .nil

/-- The function that the metatable of the first value, or else of the second, gives for an
event. -/
def eventOf (event : String) (a b : Val) : Act Val := .read fun h =>
  match h.metafield a event with
  | .nil => h.metafield b event
  | fn => fn

/-! ## Fields -/

/-- How many values stand in for each other at most in one access to a field. -/
def maxChain : Nat := 2000

/-- Whether a value is a function. -/
def isFunction : Val → Bool
  | .closure _ | .builtin _ | .native _ => true
  | _ => false

/-- The field of a value under a key, `name` being what an error says about the value. -/
def indexIn (site : Site) (key : Val) : Nat → Name → Val → Act Val
  | 0, _, _ => site.throw (utf8 "'__index' chain too long; possibly a loop")
  | fuel + 1, name, object => fun h =>
    let raw := match object with
      | .table id => (h.table id).get key
      | _ => .nil
    if !raw.isNil then .done raw h
    else
      match h.metafield object "__index", object with
      | .nil, .table _ => .done .nil h
      | .nil, _ => failType site "index" object name h
      | fn, _ =>
        if isFunction fn then callEvent site "__index" fn [object, key] h
        else indexIn site key fuel none fn h

/-- The field of a value under a key. -/
def index (site : Site) (object key : Val) : Act Val :=
  indexIn { site with name := none } key maxChain site.name object

/-- Writes a field of a table, without the help of metatables. -/
def rawSet (site : Site) (id : Nat) (key value : Val) : Act Unit :=
  match key with
  | .nil => site.throw (utf8 "table index is nil")
  | .float x =>
    if x.isNaN then site.throw (utf8 "table index is NaN")
    else .modify fun h => h.onTable id fun t => t.set key value
  | _ => .modify fun h => h.onTable id fun t => t.set key value

/-- Writes the field of a value under a key, `name` being what an error says about the value. -/
def setIndexIn (site : Site) (key value : Val) : Nat → Name → Val → Act Unit
  | 0, _, _ => site.throw (utf8 "'__newindex' chain too long; possibly a loop")
  | fuel + 1, name, object => fun h =>
    let fn := h.metafield object "__newindex"
    match object with
    | .table id =>
      if fn.isNil || !((h.table id).get key).isNil then rawSet site id key value h
      else step fuel fn object h
    | _ =>
      if fn.isNil then failType site "index" object name h else step fuel fn object h
where
  step (fuel : Nat) (fn object : Val) : Act Unit :=
    if isFunction fn then do
      let _ ← callEvent site "__newindex" fn [object, key, value]
    else setIndexIn site key value fuel none fn

/-- Writes the field of a value under a key. -/
def setIndex (site : Site) (object key value : Val) : Act Unit :=
  setIndexIn { site with name := none } key value maxChain site.name object

/-! ## Arithmetic -/

/-- The operand to blame for a failed operation: the first unless it is a number. -/
def blamed (a b : Val) (nameA nameB : Name) : Val × Name :=
  if a.isNumber then (b, nameB) else (a, nameA)

/-- An arithmetic or bitwise operation for which the values have no meaning of their own. -/
def byEvent (site : Site) (op : BinaryOp) (a b : Val) (nameA nameB : Name) : Act Val := do
  let fn ← eventOf op.event a b
  if !fn.isNil then callEvent site op.event fn [a, b]
  else if !op.isBitwise then
    let (v, name) := blamed a b nameA nameB
    failType site "perform arithmetic on" v name
  else if a.isNumber && b.isNumber then
    let name := if a.exactInt?.isSome then nameB else nameA
    site.throw (utf8 "number" ++ Site.shownName name ++ utf8 " has no integer representation")
  else
    let (v, name) := blamed a b nameA nameB
    failType site "perform bitwise operation on" v name

/-- An arithmetic or bitwise operation. -/
def arithmetic (site : Site) (op : BinaryOp) (a b : Val) (nameA nameB : Name) : Act Val :=
  if op.isBitwise then
    match a.exactInt?, b.exactInt? with
    | some i, some j => pure (.int (bitwiseOn op i j))
    | _, _ => byEvent site op a b nameA nameB
  else
    match a.number?, b.number? with
    | some m, some n =>
      match arithmeticOn op m n with
      | .ok v => pure v
      | .error wording => site.throw wording
    | _, _ => byEvent site op a b nameA nameB

/-- The negative of a value. -/
def negate (site : Site) (v : Val) (name : Name) : Act Val :=
  match v with
  | .int i => pure (.int (-i))
  | .float x => pure (.float (-x))
  | _ => do
    let fn ← eventOf "__unm" v v
    if fn.isNil then failType site "perform arithmetic on" v name
    else callEvent site "__unm" fn [v, v]

/-- The complement of the bits of a value. -/
def complement (site : Site) (v : Val) (name : Name) : Act Val :=
  match v.exactInt? with
  | some i => pure (.int (~~~i))
  | none => do
    let fn ← eventOf "__bnot" v v
    if !fn.isNil then callEvent site "__bnot" fn [v, v]
    else if v.isNumber then
      site.throw (utf8 "number" ++ Site.shownName name ++ utf8 " has no integer representation")
    else failType site "perform bitwise operation on" v name

/-! ## Comparison -/

/-- Whether two values are equal. -/
def equal (site : Site) (a b : Val) : Act Bool :=
  if a.rawEqual b then pure true
  else
    match a, b with
    | .table _, .table _ | .file _, .file _ => do
      let fn ← eventOf "__eq" a b
      if fn.isNil then return false
      else return (← callEvent site "__eq" fn [a, b]).truthy
    | _, _ => pure false

/-- A comparison for which the values have no meaning of their own. -/
def compareByEvent (site : Site) (event : String) (a b : Val) : Act Bool := do
  let fn ← eventOf event a b
  if !fn.isNil then return (← callEvent site event fn [a, b]).truthy
  else
    let first ← Act.read (·.typeText a)
    let second ← Act.read (·.typeText b)
    if first == second then
      site.throw (utf8 "attempt to compare two " ++ first ++ utf8 " values")
    else
      site.throw (utf8 "attempt to compare " ++ first ++ utf8 " with " ++ second)

/-- Whether a value is less than another. -/
def lessThan (site : Site) (a b : Val) : Act Bool :=
  match a, b with
  | .str s, .str t => pure (Val.bytesLt s t)
  | _, _ =>
    match a.number?, b.number? with
    | some m, some n => pure (Val.numberLt m n)
    | _, _ => compareByEvent site "__lt" a b

/-- Whether a value is at most another. -/
def lessEqual (site : Site) (a b : Val) : Act Bool :=
  match a, b with
  | .str s, .str t => pure (!Val.bytesLt t s)
  | _, _ =>
    match a.number?, b.number? with
    | some m, some n => pure (Val.numberLe m n)
    | _, _ => compareByEvent site "__le" a b

/-! ## Texts -/

/-- One value behind another: texts and numbers become one text. -/
def concat (site : Site) (a b : Val) (nameA nameB : Name) : Act Val :=
  match a.toText?, b.toText? with
  | some s, some t => pure (.str (s ++ t))
  | first, _ => do
    let fn ← eventOf "__concat" a b
    if !fn.isNil then callEvent site "__concat" fn [a, b]
    else if first.isSome then failType site "concatenate" b nameB
    else failType site "concatenate" a nameA

/-- The length of a value. -/
def length (site : Site) (v : Val) (name : Name) : Act Val :=
  match v with
  | .str s => pure (.ofNat s.length)
  | _ => fun h =>
    match h.metafield v "__len", v with
    | .nil, .table id => .done (.ofNat (h.table id).length) h
    | .nil, _ => failType site "get length of" v name h
    | fn, _ => callEvent site "__len" fn [v] h

/-- A number that stands for the identity of something, in hexadecimal. -/
def addressText (n : Nat) : Bytes :=
  let digits := Nat.toDigits 16 (0x5581a4c02000 + 64 * n)
  utf8 "0x" ++ Utf8.encode digits

/-- The text of a value that a metatable does not give one. -/
def plainText (h : Heap) (v : Val) : Bytes :=
  let named (n : Nat) : Bytes := h.typeText v ++ utf8 ": " ++ addressText n
  match v with
  | .nil => utf8 "nil"
  | .bool b => utf8 (if b then "true" else "false")
  | .int i => Val.intText i
  | .float x => Val.floatText x
  | .str s => s
  | .failure id => utf8 (h.failure id)
  | .table n | .closure n | .native n | .thread n | .file n => named n
  | .builtin _ => named 1

/-- The text of a value. -/
def toText (site : Site) (v : Val) : Act Bytes := do
  let fn ← Act.read fun h => h.metafield v "__tostring"
  if fn.isNil then .read fun h => plainText h v
  else
    match (← Act.call fn [v] {}).headD .nil with
    | .str s => return s
    | .int i => return Val.intText i
    | .float x => return Val.floatText x
    | _ => site.throw (utf8 "'__tostring' must return a string")

end Operation

end BracketTemplate.Script
