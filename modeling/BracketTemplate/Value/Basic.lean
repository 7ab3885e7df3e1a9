import BracketTemplate.Decimal.Shortest

/-!
# Values

What a binding holds, what a registered function takes and gives back, and what JSON text stands
for. Integers are 64 bits wide and keep apart from doubles at every depth: `1` and `1.0` are
different values.

A map lists its entries in the order in which their keys were first written. `Value.beq` forgets
that order and nothing else; it is not reflexive, because a double that is not a number differs from
itself.
-/

namespace BracketTemplate

/-- A value bound to a name or handed to a function. -/
inductive Value where
  | nil
  | bool (b : Bool)
  | int (i : Int64)
  | float (x : Float)
  | str (s : String)
  | list (items : List Value)
  | map (entries : List (String × Value))
  deriving Inhabited

namespace Value

/-- The value under a key. -/
def lookup (key : String) : List (String × Value) → Option Value
  | [] => none
  | (k, v) :: rest => if k = key then some v else lookup key rest

/-- Writes an entry: in place when the key is there, at the end otherwise. -/
def insert (key : String) (value : Value) : List (String × Value) → List (String × Value)
  | [] => [(key, value)]
  | (k, v) :: rest => if k = key then (k, value) :: rest else (k, v) :: insert key value rest

/-- The entries of a map that was written key by key. -/
def ofEntries (entries : List (String × Value)) : List (String × Value) :=
  entries.foldl (fun written (k, v) => insert k v written) []

mutual

/-- Equality of values; the order of the entries of maps does not count. -/
def beq : Value → Value → Bool
  | nil, nil => true
  | bool a, bool b => a == b
  | int a, int b => a == b
  | float a, float b => a == b
  | str a, str b => a == b
  | list a, list b => beqItems a b
  | map a, map b => a.length == b.length && beqEntries a b
  | _, _ => false

/-- Equality of lists, item by item. -/
def beqItems : List Value → List Value → Bool
  | [], [] => true
  | a :: as, b :: bs => beq a b && beqItems as bs
  | _, _ => false

/-- Every entry of the first has an equal value under its key in the second. -/
def beqEntries : List (String × Value) → List (String × Value) → Bool
  | [], _ => true
  | (key, a) :: rest, b =>
    (match lookup key b with
      | some v => beq a v
      | none => false) && beqEntries rest b

end

instance : BEq Value := ⟨beq⟩

/-- Whether this is `nil`. -/
def isNil : Value → Bool
  | nil => true
  | _ => false

/-- The text of a text value. -/
def asStr? : Value → Option String
  | str s => some s
  | _ => none

end Value

end BracketTemplate
