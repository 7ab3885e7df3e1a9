import BracketTemplate.Script.Library.Argument

/-!
# Functions on numbers

Integers stay integers where a function has an integer for them; all else is computed on doubles.
-/

namespace BracketTemplate.Script.Numbers

/-- The ratio of the circumference of a circle to its diameter. -/
def pi : Float := 3.141592653589793

/-- A double as the single result. -/
def giveFloat (x : Float) : Act (List Val) := pure [.float x]

/-- A double as an integer where it is one of 64 bits. -/
def giveWhole (x : Float) : Act (List Val) :=
  pure [((Val.intOfFloat? x).map Val.int).getD (.float x)]

/-- Applies a function on doubles. -/
def onFloat (a : Arguments) (f : Float → Float) : Act (List Val) := do giveFloat (f (← a.float 1))

/-- The remainder that has the sign of the dividend. -/
def fmod (a : Arguments) : Act (List Val) := do
  match a.get 1, a.get 2 with
  | .int m, .int n =>
    if n == 0 then a.fail 2 (utf8 "zero")
    else giveInt (Int64.ofInt (Int.tmod m.toInt n.toInt))
  | _, _ => do
    let x ← a.float 1
    let y ← a.float 2
    giveFloat (Binary64.truncatedRemainder x y)

/-- The integral and the fractional part of a number. -/
def modf (a : Arguments) : Act (List Val) := do
  match a.get 1 with
  | .int i => return [.int i, .float 0.0]
  | _ =>
    let x ← a.float 1
    let whole := if x < 0.0 then x.ceil else x.floor
    return [.float whole, .float (if x == whole then 0.0 else x - whole)]

/-- The logarithm to some base. -/
def log (a : Arguments) : Act (List Val) := do
  let x ← a.float 1
  if a.isBlank 2 then giveFloat x.log
  else
    let base ← a.float 2
    if base == 2.0 then giveFloat x.log2
    else if base == 10.0 then giveFloat x.log10
    else giveFloat (x.log / base.log)

/-- The argument that no other argument is before in an order. -/
def extreme (before : Val → Val → Act Bool) : Val → List Val → Act Val
  | best, [] => pure best
  | best, v :: rest => do
    if ← before v best then extreme before v rest else extreme before best rest

/-- The next state of the generator of pseudo-random numbers. -/
def nextSeed (seed : Nat) : Nat := (seed * 6364136223846793005 + 1442695040888963407) % twoTo 64

/-- A pseudo-random number of 53 bits. -/
def draw : Act Nat := .update fun h =>
  let seed := nextSeed h.seed
  (seed / twoTo 11, { h with seed })

/-- A pseudo-random number. -/
def random (a : Arguments) : Act (List Val) := do
  let n ← draw
  let between (low high : Int) : Act (List Val) :=
    if high < low then a.fail 2 (utf8 "interval is empty")
    else giveInt (Int64.ofInt (low + Int.ofNat n % (high - low + 1)))
  match a.count with
  | 0 => giveFloat (Float.ofNat n / 9007199254740992.0)
  | 1 => do
    let high ← a.int 1
    if high == 0 then giveInt (Int64.ofNat (n * twoTo 11)) else between 1 high.toInt
  | 2 => do
    let low ← a.int 1
    let high ← a.int 2
    between low.toInt high.toInt
  | _ => a.site.throw (utf8 "wrong number of arguments")

/-- Sets the state of the generator of pseudo-random numbers. -/
def randomSeed (a : Arguments) : Act (List Val) := do
  match a.values with
  | [] => do
    let t ← Act.ask .now
    Act.modify fun h => { h with seed := t.toNat }
    return [.ofNat t.toNat, .int 0]
  | _ =>
    let x ← match a.get 1 with
      | .float x => pure ((Binary64.floorInt? x).getD 0)
      | _ => Int64.toInt <$> a.int 1
    let y := (← a.optInt 2 0).toInt
    Act.modify fun h => { h with seed := (x + y * twoTo 32).toNat % twoTo 64 }
    return [.int (Int64.ofInt x), .int (Int64.ofInt y)]

/-- Runs a function on numbers. -/
def run (f : MathFunction) (a : Arguments) : Act (List Val) :=
  match f with
  | .abs =>
    match a.get 1 with
    | .int i => giveInt (if i < 0 then -i else i)
    | _ => onFloat a Float.abs
  | .acos => onFloat a Float.acos
  | .asin => onFloat a Float.asin
  | .atan => do
    let y ← a.float 1
    let x ← if a.isBlank 2 then pure 1.0 else a.float 2
    giveFloat (Float.atan2 y x)
  | .ceil =>
    match a.get 1 with
    | .int i => giveInt i
    | _ => do giveWhole (← a.float 1).ceil
  | .cos => onFloat a Float.cos
  | .deg => onFloat a fun x => x * (180.0 / pi)
  | .exp => onFloat a Float.exp
  | .floor =>
    match a.get 1 with
    | .int i => giveInt i
    | _ => do giveWhole (← a.float 1).floor
  | .fmod => fmod a
  | .log => log a
  | .max =>
    match a.values with
    | [] => a.fail 1 (utf8 "value expected")
    | v :: rest => do
      return [← extreme (fun v best => Operation.lessThan {} best v) v rest]
  | .min =>
    match a.values with
    | [] => a.fail 1 (utf8 "value expected")
    | v :: rest => do
      return [← extreme (fun v best => Operation.lessThan {} v best) v rest]
  | .modf => modf a
  | .rad => onFloat a fun x => x * (pi / 180.0)
  | .random => random a
  | .randomseed => randomSeed a
  | .sin => onFloat a Float.sin
  | .sqrt => onFloat a Float.sqrt
  | .tan => onFloat a Float.tan
  | .tointeger => do
    match (a.get 1).toInt? with
    | some i => giveInt i
    | none =>
      let _ ← a.any 1
      return [.nil]
  | .type => do
    match ← a.any 1 with
    | .int _ => return [.ofString "integer"]
    | .float _ => return [.ofString "float"]
    | _ => return [.nil]
  | .ult => do
    let m ← a.int 1
    let n ← a.int 2
    giveBool (m.toUInt64 < n.toUInt64)

/-- The functions under their names. -/
def names : List (String × MathFunction) :=
  [("abs", .abs), ("acos", .acos), ("asin", .asin), ("atan", .atan), ("ceil", .ceil),
    ("cos", .cos), ("deg", .deg), ("exp", .exp), ("floor", .floor), ("fmod", .fmod),
    ("log", .log), ("max", .max), ("min", .min), ("modf", .modf), ("rad", .rad),
    ("random", .random), ("randomseed", .randomseed), ("sin", .sin), ("sqrt", .sqrt),
    ("tan", .tan), ("tointeger", .tointeger), ("type", .type), ("ult", .ult)]

/-- The numbers under their names. -/
def constants : List (String × Val) :=
  [("huge", .float (1.0 / 0.0)), ("maxinteger", .int Int64.maxValue),
    ("mininteger", .int Int64.minValue), ("pi", .float pi)]

end BracketTemplate.Script.Numbers
