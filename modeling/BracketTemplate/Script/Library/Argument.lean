import BracketTemplate.Script.Operation

/-!
# Arguments of builtin functions

A builtin function gets its arguments as a list and asks for each one as the type it needs. Numbers
and texts turn into each other on the way. An argument that does not suit is reported by its place
and by the name that the function was called by; in a call of a method the object in front does not
count.
-/

namespace BracketTemplate.Script

/-- The arguments of a call of a builtin function. -/
structure Arguments where
  site : Site
  values : List Val

namespace Arguments

/-- The argument at a place, counted from `1`. -/
def get? (a : Arguments) (n : Nat) : Option Val := a.values[n - 1]?

/-- The argument at a place; a missing one is `nil`. -/
def get (a : Arguments) (n : Nat) : Val := (a.get? n).getD .nil

/-- The number of arguments. -/
def count (a : Arguments) : Nat := a.values.length

/-- Whether an argument is missing or `nil`. -/
def isBlank (a : Arguments) (n : Nat) : Bool := (a.get n).isNil

/-- The name that the function was called by. -/
def functionName (a : Arguments) : Bytes :=
  match a.site.name with
  | some (_, name) => name
  | none => utf8 "?"

/-- Fails because of the argument at a place. -/
def fail {α : Type} (a : Arguments) (n : Nat) (wording : Bytes) : Act α :=
  let isMethod := match a.site.name with
    | some (kind, _) => kind == "method"
    | none => false
  if isMethod && n == 1 then
    a.site.throw (utf8 "calling '" ++ a.functionName ++ utf8 "' on bad self (" ++ wording ++ [41])
  else
    let n := if isMethod then n - 1 else n
    a.site.throw
      (utf8 s!"bad argument #{n} to '" ++ a.functionName ++ utf8 "' (" ++ wording ++ [41])

/-- Fails because the argument at a place is not of a type. -/
def failType {α : Type} (a : Arguments) (n : Nat) (expected : String) : Act α := fun h =>
  let got := match a.get? n with
    | none => utf8 "no value"
    | some v => h.typeText v
  a.fail n (utf8 s!"{expected} expected, got " ++ got) h

/-- Any argument, which must be there. -/
def any (a : Arguments) (n : Nat) : Act Val :=
  match a.get? n with
  | some v => pure v
  | none => a.fail n (utf8 "value expected")

/-- An integer. -/
def int (a : Arguments) (n : Nat) : Act Int64 :=
  match (a.get n).toInt? with
  | some i => pure i
  | none =>
    if (a.get n).toNumber?.isSome then
      a.fail n (utf8 "number has no integer representation")
    else a.failType n "number"

/-- An integer, or another one when there is none. -/
def optInt (a : Arguments) (n : Nat) (default : Int64) : Act Int64 :=
  if a.isBlank n then pure default else a.int n

/-- A number. -/
def number (a : Arguments) (n : Nat) : Act Number :=
  match (a.get n).toNumber? with
  | some x => pure x
  | none => a.failType n "number"

/-- A number as a double. -/
def float (a : Arguments) (n : Nat) : Act Float := return Val.numberToFloat (← a.number n)

/-- A text. -/
def str (a : Arguments) (n : Nat) : Act Bytes :=
  match (a.get n).toText? with
  | some s => pure s
  | none => a.failType n "string"

/-- A text, or another one when there is none. -/
def optStr (a : Arguments) (n : Nat) (default : Bytes) : Act Bytes :=
  if a.isBlank n then pure default else a.str n

/-- A table. -/
def table (a : Arguments) (n : Nat) : Act Nat :=
  match a.get n with
  | .table id => pure id
  | _ => a.failType n "table"

/-- A function. -/
def function (a : Arguments) (n : Nat) : Act Val :=
  if Operation.isFunction (a.get n) then pure (a.get n) else a.failType n "function"

/-- One of some words, by its place among them. -/
def option (a : Arguments) (n : Nat) (default : Option String) (words : List String) : Act Nat := do
  let s ← match default with
    | some word => a.optStr n (utf8 word)
    | none => a.str n
  match words.findIdx? fun w => utf8 w == s with
  | some i => return i
  | none => a.fail n (utf8 "invalid option '" ++ s ++ [39])

end Arguments

/-- A text as the single result. -/
def giveStr (s : Bytes) : Act (List Val) := pure [.str s]

/-- An integer as the single result. -/
def giveInt (i : Int64) : Act (List Val) := pure [.int i]

/-- A natural number as the single result. -/
def giveNat (n : Nat) : Act (List Val) := pure [.ofNat n]

/-- A truth value as the single result. -/
def giveBool (b : Bool) : Act (List Val) := pure [.bool b]

end BracketTemplate.Script
