import BracketTemplate.Script.Val

/-!
# Tables

A table assigns values to keys. The values of its first keys `1`, `2`, … stand in an array, the
others as entries of a hash part, which has room for a power of two of them.

What is in a table does not depend on how it is stored, but two things that a script can see do: the
order of a traversal, and the length of a table with gaps. So the hash part keeps for every entry
the place it stands at. An entry goes to its main position; an entry that stands there without
belonging there makes room, and otherwise the new entry goes to the last free place. When no place
is free, the table is laid out anew: the array becomes as large as can be while more than half of it
is used.

Assigning `nil` to a key leaves its place taken until the next layout. Lookup finds an entry by its
key alone, and `pairs` goes by place.
-/

namespace BracketTemplate.Script

/-- An entry of the hash part of a table. -/
structure Entry where
  key : Val
  value : Val
  place : Nat
  deriving Inhabited

/-- A table. -/
structure Table where
  /-- The values of the keys from `1` on. -/
  items : Array Val := #[]
  /-- The entries of the hash part. -/
  entries : List Entry := []
  /-- The number of places of the hash part. -/
  capacity : Nat := 0
  /-- No place from here on is free. -/
  free : Nat := 0
  metatable : Option Nat := none
  deriving Inhabited

namespace Table

/-! ## Lookup -/

/-- The index into the array that a key stands for. -/
def arrayIndex? (t : Table) : Val → Option Nat
  | .int i =>
    let n := i.toInt
    if 1 ≤ n && n ≤ Int.ofNat t.items.size then some (n.toNat - 1) else none
  | _ => none

/-- The entry of a key in the hash part. -/
def entry? (t : Table) (key : Val) : Option Entry := t.entries.find? fun e => e.key.sameKey key

/-- The value under a key. -/
def get (t : Table) (key : Val) : Val :=
  let key := key.toKey
  match t.arrayIndex? key with
  | some i => t.items[i]?.getD .nil
  | none => match t.entry? key with
    | some e => e.value
    | none => .nil

/-- The value under an index. -/
def getInt (t : Table) (i : Nat) : Val := t.get (.ofNat i)

/-- The value under a text. -/
def getStr (t : Table) (s : String) : Val := t.get (.ofString s)

/-! ## Places -/

/-- The least power of two that is at least a number. -/
def ceilPowerOfTwo (n : Nat) : Nat := if n ≤ 1 then n else twoTo ((n - 1).log2 + 1)

/-- Spreads a number over an odd number of places. -/
def spread (capacity n : Nat) : Nat := n % (capacity - 1 ||| 1)

/-- The main position of a double that is no integer: the first 31 bits of its fraction, with its
sign, and its exponent added. -/
def floatPosition (capacity : Nat) (x : Float) : Nat :=
  match Binary64.ofFloat x with
  | .finite negative m e =>
    if m == 0 then 0
    else
      let exponent := Int.ofNat m.log2 + 1 + e
      let shift := Int.ofNat m.log2 + 1 - 31
      let fraction := Int.ofNat (m * twoTo (-shift).toNat / twoTo shift.toNat)
      let u := ((exponent + if negative then -fraction else fraction) % twoTo 32).toNat
      spread capacity (if u < twoTo 31 then u else twoTo 32 - 1 - u)
  | _ => 0

/-- The main position of a key among so many places. -/
def mainPosition (capacity : Nat) : Val → Nat
  | .int i =>
    let u := i.toUInt64.toNat
    spread capacity u
  | .float x => floatPosition capacity x
  | .str s => (s.foldl (fun n b => (n * 31 + b.toNat) % twoTo 32) 0) % capacity
  | .bool true => 1 % capacity
  | .table n | .closure n | .native n | .thread n | .file n | .failure n => spread capacity n
  | _ => 0

/-- Whether some entry stands at a place. -/
def taken (entries : List Entry) (place : Nat) : Bool := entries.any (·.place == place)

/-- The last free place below `limit`. -/
def lastFree? (entries : List Entry) : Nat → Option Nat
  | 0 => none
  | limit + 1 => if taken entries limit then lastFree? entries limit else some limit

/-- Adds an entry for a key that has none; none when no place is free. -/
def add? (t : Table) (key value : Val) : Option Table :=
  let main := mainPosition t.capacity key
  match if t.capacity == 0 then none else some (t.entries.find? (·.place == main)) with
  | none => none
  | some none => some { t with entries := ⟨key, value, main⟩ :: t.entries }
  | some (some other) =>
    if other.value.isNil then
      let kept := t.entries.filter (·.place != main)
      some { t with entries := ⟨key, value, main⟩ :: kept }
    else
      match lastFree? t.entries t.free with
      | none => none
      | some free =>
        if mainPosition t.capacity other.key == main then
          some { t with entries := ⟨key, value, free⟩ :: t.entries, free }
        else
          let moved :=
            t.entries.map fun e => if e.place == main then { e with place := free } else e
          some { t with entries := ⟨key, value, main⟩ :: moved, free }

/-- Writes a value under a key that the array or an entry has room for already. -/
def replace? (t : Table) (key value : Val) : Option Table :=
  match t.arrayIndex? key with
  | some i => some { t with items := t.items.setIfInBounds i value }
  | none =>
    if (t.entry? key).isSome then
      let entries := t.entries.map fun e => if e.key.sameKey key then { e with value } else e
      some { t with entries }
    else none

/-- Writes a value where there is room; the entry goes behind all places when there is none. -/
def place (t : Table) (key value : Val) : Table :=
  match t.replace? key value with
  | some t => t
  | none => (t.add? key value).getD
    { t with entries := ⟨key, value, t.capacity + t.entries.length⟩ :: t.entries }

/-! ## Order -/

/-- The entries by their places. -/
def ordered (t : Table) : List Entry := t.entries.mergeSort fun a b => a.place ≤ b.place

/-- The keys and values of the array. -/
def itemPairs (t : Table) : List (Val × Val) :=
  t.items.toList.mapIdx fun i v => (.ofNat (i + 1), v)

/-- The keys and values of a table in the order of a traversal. -/
def pairs (t : Table) : List (Val × Val) :=
  (t.itemPairs ++ t.ordered.map fun e => (e.key, e.value)).filter fun p => !p.2.isNil

/-! ## Layout -/

/-- Lays a table out with an array of `size` values and room for `count` entries. -/
def resize (t : Table) (size count : Nat) : Table :=
  let capacity := ceilPowerOfTwo count
  let items := (t.items.toList.take size ++ List.replicate (size - t.items.size) Val.nil).toArray
  let start : Table := { t with items, entries := [], capacity, free := capacity }
  let left := (t.itemPairs.drop size ++ t.ordered.map fun e => (e.key, e.value)).filter
    fun p => !p.2.isNil
  left.foldl (fun t (key, value) => t.place key value) start

/-- The slice that a key counts for: the least `k` with the key at most `2 ^ k`. -/
def slice? : Val → Option Nat
  | .int i =>
    let n := i.toInt
    if 1 ≤ n && n ≤ twoTo 27 then some (if n == 1 then 0 else (n.toNat - 1).log2 + 1) else none
  | _ => none

/-- The size of the array that suits some numbers of keys, by slice from the one of `2 ^ k` on, with
the number of keys in it; `below` keys lie in the slices before, and `total` in all. -/
def arraySize (counts : Nat → Nat) (total : Nat) : Nat → Nat → Nat → Nat × Nat → Nat × Nat
  | 0, _, _, best => best
  | fuel + 1, k, below, best =>
    if total ≤ twoTo k / 2 then best
    else
      let below := below + counts k
      arraySize counts total fuel (k + 1) below
        (if twoTo k / 2 < below then (twoTo k, below) else best)

/-- Lays a table out anew so that it has room for one more key. -/
def rehash (t : Table) (key : Val) : Table :=
  let keys := key :: t.pairs.map (·.1)
  let slices := keys.filterMap slice?
  let (size, used) := arraySize (fun k => slices.count k) slices.length 30 0 0 (0, 0)
  t.resize size (keys.length - used)

/-- Writes a value under a key. The key is neither `nil` nor a double that is not a number. -/
def set (t : Table) (key value : Val) : Table :=
  let key := key.toKey
  match t.replace? key value with
  | some t => t
  | none =>
    if value.isNil then t
    else
      match t.add? key value with
      | some t => t
      | none => (t.rehash key).place key value

/-- Writes a value under an index. -/
def setInt (t : Table) (i : Nat) (value : Val) : Table := t.set (.ofNat i) value

/-- Writes a value under a text. -/
def setStr (t : Table) (s : String) (value : Val) : Table := t.set (.ofString s) value

/-- An empty table with an array of `size` values and room for `count` entries. -/
def withRoom (size count : Nat) : Table := (default : Table).resize size count

/-- A table with some fields, which are written once each. -/
def ofFields (fields : List (String × Val)) : Table :=
  { entries := fields.mapIdx fun i (name, value) => ⟨.ofString name, value, i⟩
    capacity := ceilPowerOfTwo fields.length
    free := 0 }

/-- A sequence. -/
def ofList (vs : List Val) : Table := { items := vs.toArray }

/-! ## Length -/

/-- Whether there is no value under an index. -/
def absent (t : Table) (i : Nat) : Bool := (t.getInt i).isNil

/-- A border between a present index `i` (or `0`) and an absent index `j`, by bisection. -/
def bisect (t : Table) : Nat → Nat → Nat → Nat
  | 0, i, _ => i
  | fuel + 1, i, j =>
    if j ≤ i + 1 then i
    else
      let middle := (i + j) / 2
      if t.absent middle then bisect t fuel i middle else bisect t fuel middle j

/-- The greatest index. -/
def maxIndex : Nat := twoTo 63 - 1

/-- A border at or above a present index: doubles the index until one is absent. The greatest index
takes the place of all that are beyond it, and is a border when it is present. -/
def searchUp (t : Table) : Nat → Nat → Nat
  | 0, i => i
  | fuel + 1, i =>
    if i ≤ maxIndex / 2 then
      if t.absent (2 * i) then bisect t 64 i (2 * i) else searchUp t fuel (2 * i)
    else if t.absent maxIndex then bisect t 64 i maxIndex
    else maxIndex

/-- The length of a table: an index with a value whose successor has none, or `0` when the first has
none. -/
def length (t : Table) : Nat :=
  let limit := t.items.size
  if 0 < limit && t.absent limit then
    if 2 ≤ limit && !t.absent (limit - 1) then limit - 1 else bisect t 64 0 limit
  else if t.absent (limit + 1) then limit
  else searchUp t 64 (max limit 1)

/-! ## Traversal -/

/-- The first key and value of the array from an index on; `fuel` bounds the number of values. -/
def firstItem? (t : Table) : Nat → Nat → Option (Val × Val)
  | 0, _ => none
  | fuel + 1, i =>
    match t.items[i]? with
    | none => none
    | some .nil => firstItem? t fuel (i + 1)
    | some v => some (.ofNat (i + 1), v)

/-- The first key and value of the hash part from a place on. -/
def firstEntry? (t : Table) (place : Nat) : Option (Val × Val) :=
  let best := t.entries.foldl (fun (best : Option Entry) e =>
    if e.place < place || e.value.isNil then best
    else match best with
      | some b => if e.place < b.place then some e else best
      | none => some e) none
  best.map fun e => (e.key, e.value)

/-- The key and value behind a key in a traversal, `nil` standing before the first; none when the
traversal is over. An error is a key that the table does not have. -/
def next (t : Table) (key : Val) : Except Unit (Option (Val × Val)) :=
  let key := key.toKey
  let fromIndex (i : Nat) : Option (Val × Val) :=
    (t.firstItem? (t.items.size - i) i).or (t.firstEntry? 0)
  if key.isNil then .ok (fromIndex 0)
  else match t.arrayIndex? key with
    | some i => .ok (fromIndex (i + 1))
    | none => match t.entry? key with
      | some e => .ok (t.firstEntry? (e.place + 1))
      | none => .error ()

end Table

end BracketTemplate.Script
