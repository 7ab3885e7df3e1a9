import BracketTemplate.Script.Library.Argument

/-!
# Arguments of host functions

Host functions take text in UTF-8 and natural numbers. What they get is converted, and what cannot
be converted is reported by its type and by the type that was asked for.
-/

namespace BracketTemplate.Script

/-- The name of the type of a value as the host tells types apart. -/
def Val.hostTypeName : Val → String
  | .int _ => "integer"
  | .failure _ => "error"
  | v => v.typeName

/-- The report of a value that cannot be converted. -/
def conversionFault (v : Val) (target : String) (why : Option String) : String :=
  let reason := match why with
    | some why => s!" ({why})"
    | none => ""
  s!"error converting Lua {v.hostTypeName} to {target}{reason}"

/-! ## Errors of scripts, seen by the host -/

/-- The report of an error with some text. The text ends at a zero byte. -/
def errorReport (text : Bytes) : String := "runtime error: " ++ Bytes.text (text.takeWhile (· != 0))

/-- The report of an error value: that of a host function itself, or the text of the value. -/
def reportOf (error : Val) : Act String := do
  match error with
  | .failure id => .read (·.failure id)
  | e => return errorReport (← Operation.toText {} e)

/-- Fails with the error of a host function that calls a function which failed. -/
def failReported {α : Type} (error : Val) : Act α := do
  match error with
  | .failure _ => .throw error
  | e => .failHost (← reportOf e)

/-- Goes on with another outcome when an outcome fails. Errors of functions that it calls are not
its own. -/
def Outcome.onFail {α : Type} (o : Outcome α) (f : Val → Heap → Outcome α) : Outcome α :=
  match o with
  | .done a heap => .done a heap
  | .fail error heap => f error heap
  | .call fn args site heap next => .call fn args site heap fun r h => (next r h).onFail f
  | .enter code heap next => .enter code heap fun r h => (next r h).onFail f
  | .guard fn args handler heap next => .guard fn args handler heap fun r h => (next r h).onFail f
  | .control c heap next => .control c heap fun r h => (next r h).onFail f
  | .ask request heap next => .ask request heap fun r h => (next r h).onFail f

/-- Lets an act fail as a host function does. -/
def Act.asHost {α : Type} (m : Act α) : Act α := fun h => (m h).onFail failReported

/-- A value as text. -/
def Val.hostText (v : Val) : Except String String :=
  match v.toText? with
  | none => .error (conversionFault v "String" (some "expected string or number"))
  | some bytes =>
    match Utf8.decode? bytes with
    | .ok text => .ok (String.ofList text)
    | .error f => .error (conversionFault (.str bytes) "String" (some f.message))

/-- A value as a natural number; what stands behind the point of a double is dropped. -/
def Val.hostNat (v : Val) : Except String Nat :=
  let outOfRange := Except.error (conversionFault v "usize" (some "out of range"))
  match v.toNumber? with
  | none =>
    .error (conversionFault v "usize" (some "expected number or string coercible to number"))
  | some (.int i) => if i < 0 then outOfRange else .ok i.toInt.toNat
  | some (.float x) =>
    match Binary64.ofFloat x with
    | .finite negative m e =>
      let n := if negative then 0 else (Binary64.floorInt false m e).toNat
      if (negative && x ≤ -1.0) || twoTo 64 ≤ n then outOfRange else .ok n
    | _ => outOfRange

namespace Arguments

/-- An argument that a conversion takes, or the report of the argument that it does not take. -/
def converted {α : Type} (a : Arguments) (n : Nat) (convert : Val → Except String α) : Act α :=
  match convert (a.get n) with
  | .ok x => pure x
  | .error wording => .failHost s!"bad argument #{n}: {wording}"

/-- An argument as text. -/
def hostText (a : Arguments) (n : Nat) : Act String := a.converted n Val.hostText

end Arguments

end BracketTemplate.Script
