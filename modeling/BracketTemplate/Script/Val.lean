import BracketTemplate.Decimal.Places
import BracketTemplate.Script.Builtin
import BracketTemplate.Script.Numeral

/-!
# Script values

The values that a script computes with. Everything that can change or that has an identity of its
own (tables, functions of the script, coroutines, files) is a number that the heap knows.

A number is an integer of 64 bits or a double; as a key of a table, a double that is an integer is
that integer. Text and numbers turn into each other where an operation asks for the other one.
-/

namespace BracketTemplate.Script

/-- A value of a script. -/
inductive Val where
  | nil
  | bool (b : Bool)
  | int (i : Int64)
  | float (x : Float)
  | str (text : Bytes)
  | table (id : Nat)
  /-- A function of the script. -/
  | closure (id : Nat)
  | builtin (f : Builtin)
  /-- A builtin function with a state of its own. -/
  | native (id : Nat)
  | thread (id : Nat)
  | file (id : Nat)
  /-- The error of a host function, as a script gets hold of it. -/
  | failure (id : Nat)
  deriving Inhabited

namespace Val

/-- A text. -/
def ofString (s : String) : Val := .str (utf8 s)

/-- A natural number. -/
def ofNat (n : Nat) : Val := .int (Int64.ofNat n)

/-- A number. -/
def ofNumber : Number → Val
  | .int i => .int i
  | .float x => .float x

/-- Whether the value counts as true: all but `nil` and `false` do. -/
def truthy : Val → Bool
  | nil | bool false => false
  | _ => true

/-- Whether the value is `nil`. -/
def isNil : Val → Bool
  | nil => true
  | _ => false

/-- Whether the value is a number. -/
def isNumber : Val → Bool
  | int _ | float _ => true
  | _ => false

/-- Whether the value is a text. -/
def isStr : Val → Bool
  | str _ => true
  | _ => false

/-- The name of the type of a value. -/
def typeName : Val → String
  | nil => "nil"
  | bool _ => "boolean"
  | int _ | float _ => "number"
  | str _ => "string"
  | table _ => "table"
  | closure _ | builtin _ | native _ => "function"
  | thread _ => "thread"
  | file _ | failure _ => "userdata"

/-! ## Numbers -/

/-- The double nearest to an integer. -/
def floatOfInt (i : Int64) : Float := i.toFloat

/-- The integer that a double is equal to, if it has one of 64 bits. -/
def intOfFloat? (x : Float) : Option Int64 :=
  (Binary64.exactInt? x).bind fun n =>
    if -(twoTo 63) ≤ n && n < twoTo 63 then some (Int64.ofInt n) else none

/-- The integer that a number is equal to. -/
def exactInt? : Val → Option Int64
  | int i => some i
  | float x => intOfFloat? x
  | _ => none

/-- A number or the number that a text is a numeral of. -/
def toNumber? : Val → Option Number
  | int i => some (.int i)
  | float x => some (.float x)
  | str s => Numeral.read? s
  | _ => none

/-- The integer that a number, or a text that is a numeral, is equal to. -/
def toInt? (v : Val) : Option Int64 := (v.toNumber?.map ofNumber).bind exactInt?

/-- A number as a double. -/
def numberToFloat : Number → Float
  | .int i => floatOfInt i
  | .float x => x

/-- A number, or a text that is a numeral, as a double. -/
def toFloat? (v : Val) : Option Float := v.toNumber?.map numberToFloat

/-- Whether an integer is less than a double; exact, and false for what is not a number. -/
def intLtFloat (i : Int64) (x : Float) : Bool :=
  match Binary64.ofFloat x with
  | .nan => false
  | .infinite negative => !negative
  | .finite negative m e =>
    let floor := Binary64.floorInt negative m e
    if Binary64.isIntegral m e then i.toInt < floor else i.toInt ≤ floor

/-- Whether an integer is at most a double. -/
def intLeFloat (i : Int64) (x : Float) : Bool :=
  match Binary64.ofFloat x with
  | .nan => false
  | .infinite negative => !negative
  | .finite negative m e => i.toInt ≤ Binary64.floorInt negative m e

/-- Whether a double is less than an integer. -/
def floatLtInt (x : Float) (i : Int64) : Bool := !x.isNaN && !intLeFloat i x

/-- Whether a double is at most an integer. -/
def floatLeInt (x : Float) (i : Int64) : Bool := !x.isNaN && !intLtFloat i x

/-- Whether a number is less than another. -/
def numberLt : Number → Number → Bool
  | .int a, .int b => a < b
  | .int a, .float b => intLtFloat a b
  | .float a, .int b => floatLtInt a b
  | .float a, .float b => a < b

/-- Whether a number is at most another. -/
def numberLe : Number → Number → Bool
  | .int a, .int b => a ≤ b
  | .int a, .float b => intLeFloat a b
  | .float a, .int b => floatLeInt a b
  | .float a, .float b => a ≤ b

/-! ## Equality and keys -/

/-- Equality without the help of metatables. Integers and doubles are compared by their exact
values. -/
def rawEqual : Val → Val → Bool
  | nil, nil => true
  | bool a, bool b => a == b
  | int a, int b => a == b
  | float a, float b => a == b
  | int a, float b => intOfFloat? b == some a
  | float a, int b => intOfFloat? a == some b
  | str a, str b => a == b
  | table a, table b => a == b
  | closure a, closure b => a == b
  | builtin a, builtin b => a == b
  | native a, native b => a == b
  | thread a, thread b => a == b
  | file a, file b => a == b
  | failure a, failure b => a == b
  | _, _ => false

/-- The form in which a value is a key: an integral double is an integer. -/
def toKey : Val → Val
  | float x => match intOfFloat? x with
    | some i => int i
    | none => float x
  | v => v

/-- Equality of keys. -/
def sameKey : Val → Val → Bool
  | int a, int b => a == b
  | str a, str b => a == b
  | float a, float b => a == b
  | int _, float _ | float _, int _ => false
  | a, b => rawEqual a b

/-! ## Texts of numbers -/

/-- An integer in decimal. -/
def intText (i : Int64) : Bytes :=
  let n := i.toInt
  let digits := Utf8.encode (Decimal.digitsOf n.natAbs)
  if n < 0 then 45 :: digits else digits

/-- A double with fourteen digits, and with a point where it would look like an integer. -/
def floatText (x : Float) : Bytes :=
  match Binary64.ofFloat x with
  | .nan => utf8 (if x.toBits.toNat / twoTo 63 == 1 then "-nan" else "nan")
  | .infinite negative => utf8 (if negative then "-inf" else "inf")
  | .finite negative m e =>
    let text := Decimal.general m e 14 false
    let text := if text.all Char.isDigit then text ++ ['.', '0'] else text
    Utf8.encode (if negative then '-' :: text else text)

/-- The text of a number, and a text itself. -/
def toText? : Val → Option Bytes
  | str s => some s
  | int i => some (intText i)
  | float x => some (floatText x)
  | _ => none

/-- Whether a text comes before another, byte by byte. -/
def bytesLt : Bytes → Bytes → Bool
  | _, [] => false
  | [], _ :: _ => true
  | a :: as, b :: bs => a < b || (a == b && bytesLt as bs)

end Val

end BracketTemplate.Script
