import BracketTemplate.Script.Token

/-!
# Scripts as trees

The parsed form of a script. Names are resolved: a local variable is a slot of the running function,
a variable of an enclosing function an upvalue, and a global name the field of an environment table,
which is itself a variable.

Every part that can fail carries the line that a report of the failure names. For an index that is
the line on which its value is first asked for, which can be behind the index itself.
-/

namespace BracketTemplate.Script

/-- Operators between two values, apart from the logical ones and concatenation. -/
inductive BinaryOp where
  | add | sub | mul | div | idiv | mod | pow
  | band | bor | bxor | shl | shr
  | eq | ne | lt | le | gt | ge
  deriving DecidableEq, Repr, Inhabited

/-- Operators on one value. -/
inductive UnaryOp where
  | neg | not | len | bnot
  deriving DecidableEq, Repr, Inhabited

/-- Where a closure finds the variable behind an upvalue when it is made. -/
structure UpvalueSource where
  name : Bytes
  /-- Whether it is a local variable of the enclosing function, and not one of its upvalues. -/
  isLocal : Bool
  /-- The slot or the index there. -/
  index : Nat
  deriving DecidableEq, Repr, Inhabited

mutual

/-- Expressions. -/
inductive Expr where
  | nil
  | true
  | false
  | number (n : Number)
  | string (text : Bytes)
  | vararg
  | localVar (slot : Nat) (name : Bytes)
  | upvalue (index : Nat) (name : Bytes)
  | index (object key : Expr) (line : Nat)
  | call (fn : Expr) (args : List Expr) (line : Nat)
  | method (object : Expr) (name : Bytes) (args : List Expr) (selfLine line : Nat)
  | function (proto : Proto)
  | binary (op : BinaryOp) (left right : Expr) (line : Nat)
  | unary (op : UnaryOp) (operand : Expr) (line : Nat)
  | concat (operands : List Expr) (line : Nat)
  | and (left right : Expr)
  | or (left right : Expr)
  /-- An expression in parentheses that has one value whatever stands in them. -/
  | paren (inner : Expr)
  | table (fields : List Field)

/-- Fields of a table constructor. -/
inductive Field where
  | item (value : Expr)
  | entry (key value : Expr) (line : Nat)

/-- Statements. -/
inductive Stmt where
  /-- Declares variables in consecutive slots. `closing` tells which of them, if any, is to be
  closed when its block is left. -/
  | localVars (slot count : Nat) (closing : Option Nat) (names : List Bytes) (values : List Expr)
      (line : Nat)
  | localFunction (slot : Nat) (proto : Proto)
  | assign (targets : List Expr) (values : List Expr)
  | call (e : Expr)
  | block (body : List Stmt)
  | while (condition : Expr) (body : List Stmt)
  | repeat (body : List Stmt) (condition : Expr)
  | if (clauses : List Clause) (otherwise : List Stmt)
  | numericFor (slot : Nat) (start limit : Expr) (step : Option Expr) (body : List Stmt)
      (line : Nat)
  | genericFor (slot count : Nat) (values : List Expr) (body : List Stmt) (line : Nat)
  | return (values : List Expr)
  | break
  | goto (label : Bytes)
  | label (name : Bytes)

/-- A condition of an `if` with what it guards. -/
inductive Clause where
  | mk (condition : Expr) (body : List Stmt)

/-- A function as it is written. -/
inductive Proto where
  | mk (parameters : Nat) (isVararg : Bool) (slots : Nat) (upvalues : List UpvalueSource)
      (body : List Stmt) (line : Nat)

end

instance : Inhabited Expr := ⟨.nil⟩
instance : Inhabited Stmt := ⟨.break⟩
instance : Inhabited Proto := ⟨.mk 0 Bool.false 0 [] [] 0⟩

namespace Proto

/-- The number of parameters. -/
def parameters : Proto → Nat
  | mk n .. => n

/-- Whether a call keeps the arguments behind the parameters. -/
def isVararg : Proto → Bool
  | mk _ v .. => v

/-- Where the upvalues come from. -/
def upvalues : Proto → List UpvalueSource
  | mk _ _ _ us .. => us

/-- The statements of the function. -/
def body : Proto → List Stmt
  | mk _ _ _ _ b _ => b

/-- The line that the function starts on. -/
def line : Proto → Nat
  | mk _ _ _ _ _ l => l

end Proto

namespace Expr

/-- Whether the expression can have any number of values. -/
def isMulti : Expr → Bool
  | call .. | method .. | vararg => Bool.true
  | _ => Bool.false

/-- Fixes the line of an index whose value is asked for now; an index fixed before stays. -/
def settle (line : Nat) : Expr → Expr
  | index object key 0 => index object key line
  | e => e

end Expr

end BracketTemplate.Script
