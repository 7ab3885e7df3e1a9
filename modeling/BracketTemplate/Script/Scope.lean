import BracketTemplate.Script.Ast

/-!
# Scopes

What a parser has to know of the functions it stands in: their local variables, the variables that
they take from the functions around them, their blocks, and the jumps in them that have not found
their label yet.

A name is looked for among the local variables of the innermost function, then among its upvalues,
then in the function around it; what is found there becomes an upvalue of every function in between
(`Scope.resolve`). A label is visible in its block and in the blocks inside. A jump to a label that
is not there yet waits in its block, moves out when the block ends, and must not enter the scope of
a variable that was declared after it.
-/

namespace BracketTemplate.Script

/-- What may be done with a local variable. -/
inductive Access where
  | regular
  /-- It is never assigned to. -/
  | constant
  /-- It is never assigned to, and closed when its block is left. -/
  | closing
  deriving DecidableEq, Repr, Inhabited

/-- A local variable of a function. -/
structure LocalVariable where
  name : Bytes
  access : Access
  deriving Repr, Inhabited

/-- A jump that waits for its label, with the number of variables that were there. -/
structure PendingJump where
  label : Bytes
  line : Nat
  active : Nat
  deriving Repr, Inhabited

/-- A block of a function. -/
structure Block where
  isLoop : Bool
  /-- The number of variables that are there at its start. -/
  active : Nat
  labels : List (Bytes × Nat) := []
  jumps : List PendingJump := []
  deriving Repr, Inhabited

/-- A variable taken from the function around. -/
structure Upvalue where
  source : UpvalueSource
  access : Access
  deriving Repr, Inhabited

/-- A function that is being parsed. -/
structure Scope where
  /-- The local variables that can be named, the innermost first. -/
  locals : List LocalVariable := []
  upvalues : List Upvalue := []
  /-- The blocks that are open, the innermost first. -/
  blocks : List Block := []
  isVararg : Bool := false
  /-- The line that the function starts on; `0` for a whole script. -/
  line : Nat := 0
  /-- The greatest number of local variables there were at a time. -/
  slots : Nat := 0
  deriving Repr, Inhabited

/-- What a name stands for. -/
inductive Variable where
  | localVar (slot : Nat) (access : Access)
  | upvalue (index : Nat) (access : Access)
  deriving Repr, Inhabited

/-- The greatest number of local variables of a function. -/
def maxLocals : Nat := 200

/-- The greatest number of upvalues of a function. -/
def maxUpvalues : Nat := 255

/-- The jump that leaves a loop. No label that is written has this name. -/
def breakLabel : Bytes := utf8 "break"

namespace Scope

/-- The slot and the access to a local variable; the innermost one of a name counts. -/
def local? (name : Bytes) : List LocalVariable → Option (Nat × Access)
  | [] => none
  | v :: rest => if v.name == name then some (rest.length, v.access) else local? name rest

/-- The index of an upvalue. -/
def upvalue? (name : Bytes) (upvalues : List Upvalue) : Option (Nat × Access) :=
  (upvalues.findIdx? fun u => u.source.name == name).bind fun i =>
    upvalues[i]?.map fun u => (i, u.access)

/-- Finds the variable that a name stands for, from the innermost function outwards; functions in
between get it as an upvalue. None when no function has it. -/
def resolve (name : Bytes) : List Scope → Option (Variable × List Scope)
  | [] => none
  | scope :: outer =>
    match local? name scope.locals with
    | some (slot, access) => some (.localVar slot access, scope :: outer)
    | none =>
      match upvalue? name scope.upvalues with
      | some (index, access) => some (.upvalue index access, scope :: outer)
      | none =>
        (resolve name outer).map fun (found, outer) =>
          let (source, access) : UpvalueSource × Access := match found with
            | .localVar slot access => (⟨name, true, slot⟩, access)
            | .upvalue index access => (⟨name, false, index⟩, access)
          (.upvalue scope.upvalues.length access,
            { scope with upvalues := scope.upvalues ++ [⟨source, access⟩] } :: outer)

/-- Declares variables, the last one innermost. -/
def declare (scope : Scope) (declared : List LocalVariable) : Scope :=
  let locals := declared.reverse ++ scope.locals
  { scope with locals, slots := max scope.slots locals.length }

/-- Opens a block. -/
def enterBlock (scope : Scope) (isLoop : Bool) : Scope :=
  { scope with blocks := { isLoop, active := scope.locals.length } :: scope.blocks }

/-- The line of a label that can be seen. -/
def label? (scope : Scope) (name : Bytes) : Option Nat :=
  scope.blocks.findSome? fun block => block.labels.lookup name

/-- Changes the innermost block. -/
def onBlock (scope : Scope) (f : Block → Block) : Scope :=
  match scope.blocks with
  | [] => scope
  | block :: outer => { scope with blocks := f block :: outer }

/-- Notes a jump; one to a label that can be seen already needs no note. -/
def jump (scope : Scope) (label : Bytes) (line : Nat) : Scope :=
  if (scope.label? label).isSome then scope
  else scope.onBlock fun block =>
    { block with jumps := block.jumps ++ [⟨label, line, scope.locals.length⟩] }

/-- The first jump to a label that would enter the scope of a variable, with the name of that
variable. `active` is the number of variables at the label. -/
def badJump? (scope : Scope) (label : Bytes) (active : Nat) (jumps : List PendingJump) :
    Option (PendingJump × Bytes) :=
  (jumps.find? fun j => j.label == label && j.active < active).map fun j =>
    (j, ((scope.locals.reverse[j.active]?).map (·.name)).getD [])

/-- Sets a label in the innermost block, where `active` variables count as declared. An error is a
jump into the scope of a variable. -/
def setLabel (scope : Scope) (label : Bytes) (line active : Nat) :
    Except (PendingJump × Bytes) Scope :=
  let waiting := (scope.blocks.head?.map (·.jumps)).getD []
  match scope.badJump? label active waiting with
  | some bad => .error bad
  | none => .ok <| scope.onBlock fun block =>
    { block with
      labels := (label, line) :: block.labels
      jumps := block.jumps.filter (·.label != label) }

/-- Closes the innermost block. An error is a jump that will never find its label. -/
def leaveBlock (scope : Scope) : Except PendingJump Scope :=
  match scope.blocks with
  | [] => .ok scope
  | block :: outer =>
    let locals := scope.locals.drop (scope.locals.length - block.active)
    let waiting := if block.isLoop then block.jumps.filter (·.label != breakLabel) else block.jumps
    let moved := waiting.map fun j => { j with active := block.active }
    match outer, moved with
    | [], j :: _ => .error j
    | [], [] => .ok { scope with locals, blocks := [] }
    | around :: rest, moved =>
      .ok { scope with locals, blocks := { around with jumps := around.jumps ++ moved } :: rest }

end Scope

end BracketTemplate.Script
