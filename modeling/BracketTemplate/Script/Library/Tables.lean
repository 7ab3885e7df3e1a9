import BracketTemplate.Script.Library.Argument

/-!
# Functions on sequences

A sequence is a table with values under the keys from `1` on. These functions read and write it as a
script does, so that the metatables of a table have their say.

Sorting takes the value in the middle for the pivot, after the first, the middle and the last value
are in order, and parts the others from both ends. It goes down into the shorter part first. An
order under which a part runs over its end is none, and sorting fails.
-/

namespace BracketTemplate.Script.Tables

/-! ## Access -/

/-- The value under an index. -/
def getAt (t : Val) (i : Int) : Act Val := Operation.index {} t (.int (Int64.ofInt i))

/-- Writes the value under an index. -/
def setAt (t : Val) (i : Int) (v : Val) : Act Unit :=
  Operation.setIndex {} t (.int (Int64.ofInt i)) v

/-- The length of a value. -/
def lengthOf (a : Arguments) (v : Val) : Act Int := do
  match (← Operation.length {} v none).toInt? with
  | some n => return n.toInt
  | none => a.site.throw (utf8 "object length is not an integer")

/-- The table in front of the other arguments, and its length. -/
def sequence (a : Arguments) : Act (Val × Int) := do
  let t := Val.table (← a.table 1)
  return (t, ← lengthOf a t)

/-- The greatest integer. -/
def maxInteger : Int := twoTo 63 - 1

/-! ## Values in a row -/

/-- Writes the values under so many indices from `source` on to those from `target` on, the first
first. -/
def copyUp (t : Val) (destination : Val) (source target : Int) : Nat → Act Unit
  | 0 => pure ()
  | n + 1 => do
    setAt destination target (← getAt t source)
    copyUp t destination (source + 1) (target + 1) n

/-- Writes the values under so many indices from `source` on to those from `target` on, the last
first. -/
def copyDown (t : Val) (destination : Val) (source target : Int) : Nat → Act Unit
  | 0 => pure ()
  | n + 1 => do
    setAt destination (target + Int.ofNat n) (← getAt t (source + Int.ofNat n))
    copyDown t destination source target n

/-- The values under so many indices. -/
def valuesFrom (t : Val) (i : Int) : Nat → Act (List Val)
  | 0 => pure []
  | n + 1 => do
    let v ← getAt t i
    return v :: (← valuesFrom t (i + 1) n)

/-- The texts under so many indices with a separator between them, behind the text `done`, which is
backwards. -/
def joinFrom (a : Arguments) (t : Val) (separator : Bytes) (i : Int) : Nat → Bytes → Act Bytes
  | 0, done => pure done.reverse
  | n + 1, done => do
    let v ← getAt t i
    match v.toText? with
    | some s =>
      let done := s.reverse ++ done
      joinFrom a t separator (i + 1) n (if n == 0 then done else separator.reverse ++ done)
    | none => fun h =>
      a.site.throw (utf8 "invalid value (" ++ h.typeText v
        ++ utf8 s!") at index {i} in table for 'concat'") h

/-- Joins the texts of a sequence. -/
def concat (a : Arguments) : Act (List Val) := do
  let (t, n) ← sequence a
  let separator ← a.optStr 2 []
  let first := (← a.optInt 3 1).toInt
  let last := (← a.optInt 4 (Int64.ofInt n)).toInt
  giveStr (← joinFrom a t separator first (last - first + 1).toNat [])

/-- Inserts a value in front of those from a place on. -/
def insert (a : Arguments) : Act (List Val) := do
  let (t, n) ← sequence a
  let next := n + 1
  match a.count with
  | 2 => setAt t next (a.get 2)
  | 3 =>
    let place := (← a.int 2).toInt
    if place < 1 || next < place then a.fail 2 (utf8 "position out of bounds")
    copyDown t t place (place + 1) (next - place).toNat
    setAt t place (a.get 3)
  | _ => a.site.throw (utf8 "wrong number of arguments to 'insert'")
  return []

/-- Removes the value at a place. -/
def remove (a : Arguments) : Act (List Val) := do
  let (t, n) ← sequence a
  let place := (← a.optInt 2 (Int64.ofInt n)).toInt
  if place != n && (place < 1 || n + 1 < place) then
    a.fail 2 (utf8 "position out of bounds")
  let v ← getAt t place
  let behind := (n - place).toNat
  copyUp t t (place + 1) place behind
  setAt t (place + Int.ofNat behind) .nil
  return [v]

/-- Writes the values of one table to another, so that no value is overwritten before it is read. -/
def move (a : Arguments) : Act (List Val) := do
  let first := (← a.int 2).toInt
  let last := (← a.int 3).toInt
  let target := (← a.int 4).toInt
  let same := a.isBlank 5
  let t := Val.table (← a.table 1)
  let destination := Val.table (← a.table (if same then 1 else 5))
  if first ≤ last then
    if !(0 < first || last < maxInteger + first) then
      a.fail 3 (utf8 "too many elements to move")
    let n := last - first + 1
    if maxInteger - n + 1 < target then a.fail 4 (utf8 "destination wrap around")
    if last < target || target ≤ first || !(same || t.rawEqual destination) then
      copyUp t destination first target n.toNat
    else copyDown t destination first target n.toNat
  return [destination]

/-- The most values that a function gives at a time. -/
def maxResults : Int := 1000000

/-- The values of a sequence. -/
def unpack (a : Arguments) : Act (List Val) := do
  let first := (← a.optInt 2 1).toInt
  let last ← if a.isBlank 3 then lengthOf a (a.get 1) else Int64.toInt <$> a.int 3
  let n := last - first + 1
  if maxResults ≤ n then a.site.throw (utf8 "too many results to unpack")
  valuesFrom (a.get 1) first n.toNat

/-! ## Sorting -/

/-- Whether a value comes before another. -/
def before (fn x y : Val) : Act Bool :=
  if fn.isNil then Operation.lessThan {} x y
  else do return ((← Act.call fn [x, y] {}).headD .nil).truthy

/-- Fails because the order is none. -/
def failOrder {α : Type} (a : Arguments) : Act α :=
  a.site.throw (utf8 "invalid order function for sorting")

/-- The first index behind `i` whose value does not come before the pivot, with that value. -/
def scanUp (a : Arguments) (t fn pivot : Val) (high : Nat) : Nat → Nat → Act (Nat × Val)
  | 0, i => pure (i, .nil)
  | fuel + 1, i => do
    let i := i + 1
    let v ← getAt t i
    if ← before fn v pivot then
      if i == high - 1 then failOrder a else scanUp a t fn pivot high fuel i
    else return (i, v)

/-- The last index in front of `j` whose value the pivot does not come before, with that value. -/
def scanDown (a : Arguments) (t fn pivot : Val) (i : Nat) : Nat → Nat → Act (Nat × Val)
  | 0, j => pure (j, .nil)
  | fuel + 1, j => do
    let j := j - 1
    let v ← getAt t j
    if ← before fn pivot v then
      if j < i then failOrder a else scanDown a t fn pivot i fuel j
    else return (j, v)

/-- Parts the values between two indices by the pivot, which stands in front of `high`; gives the
index of the pivot. -/
def partition (a : Arguments) (t fn pivot : Val) (high : Nat) : Nat → Nat → Nat → Act Nat
  | 0, i, _ => pure i
  | fuel + 1, i, j => do
    let (i, x) ← scanUp a t fn pivot high (high + 1) i
    let (j, y) ← scanDown a t fn pivot i (high + 1) j
    if j < i then
      let last ← getAt t (high - 1 : Nat)
      setAt t (high - 1 : Nat) x
      setAt t i last
      return i
    else
      setAt t i y
      setAt t j x
      partition a t fn pivot high fuel i j

/-- Puts the values under two indices in order. -/
def order (t fn : Val) (i j : Nat) : Act Unit := do
  let x ← getAt t i
  let y ← getAt t j
  if ← before fn y x then
    setAt t i y
    setAt t j x

/-- Sorts the values from an index to another; `fuel` bounds the number of parts. -/
def sortBetween (a : Arguments) (t fn : Val) : Nat → Nat → Nat → Act Unit
  | 0, _, _ => pure ()
  | fuel + 1, low, high => do
    if high ≤ low then return
    order t fn low high
    if high - low == 1 then return
    let middle := (low + high) / 2
    let m ← getAt t middle
    let l ← getAt t low
    if ← before fn m l then
      setAt t middle l
      setAt t low m
    else
      let h ← getAt t high
      if ← before fn h m then
        setAt t middle h
        setAt t high m
    if high - low == 2 then return
    let pivot ← getAt t middle
    let last ← getAt t (high - 1 : Nat)
    setAt t middle last
    setAt t (high - 1 : Nat) pivot
    let p ← partition a t fn pivot high (high + 1) low (high - 1)
    if p - low < high - p then
      sortBetween a t fn fuel low (p - 1)
      sortBetween a t fn fuel (p + 1) high
    else
      sortBetween a t fn fuel (p + 1) high
      sortBetween a t fn fuel low (p - 1)

/-- Sorts a sequence. -/
def sort (a : Arguments) : Act (List Val) := do
  let (t, n) ← sequence a
  if 1 < n then
    if twoTo 31 - 1 ≤ n then a.fail 1 (utf8 "array too big")
    let fn ← if a.isBlank 2 then pure Val.nil else a.function 2
    sortBetween a t fn (n.toNat + 1) 1 n.toNat
  return []

/-! ## The functions -/

/-- Runs a function on sequences. -/
def run (f : TableFunction) (a : Arguments) : Act (List Val) :=
  match f with
  | .concat => concat a
  | .insert => insert a
  | .move => move a
  | .pack => .update fun h =>
    let t := (Table.ofList a.values).setStr "n" (.ofNat a.count)
    let (id, h) := h.newTable t
    ([.table id], h)
  | .remove => remove a
  | .sort => sort a
  | .unpack => unpack a

/-- The functions under their names. -/
def names : List (String × TableFunction) :=
  [("concat", .concat), ("insert", .insert), ("move", .move), ("pack", .pack),
    ("remove", .remove), ("sort", .sort), ("unpack", .unpack)]

end BracketTemplate.Script.Tables
