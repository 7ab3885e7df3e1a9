import BracketTemplate.Script.Request

/-!
# Acts

An act is a computation of a script. Given a heap it comes to an outcome: it is done, it has failed
with an error value, or it wants something that it cannot do itself and says how it goes on with the
answer. What it can want is to

* call a function, and get its results;
* enter code that may run any number of times, and get the signal that the code is left with;
* call a function under guard, and get its results or its error;
* have something done to coroutines or to the stack of calls;
* ask the host.

An act never calls another function by itself, so every act comes to its outcome in a number of
steps that its code alone bounds. Loops and calls are the matter of the machine that runs acts.
-/

namespace BracketTemplate.Script

/-- Where a call or an operation stands: a line of a chunk, none for a builtin function. -/
structure Site where
  position : Option (Bytes × Nat) := none
  /-- What is called, by its kind and its name, as far as the code tells. -/
  name : Option (String × Bytes) := none
  deriving Inhabited, Repr

/-- The call of a function that runs: its variables and the arguments it has beyond its
parameters. -/
structure Activation where
  /-- The cells of the local variables by slot. -/
  cells : Array Nat := #[]
  upvalues : Array Nat := #[]
  varargs : List Val := []
  /-- The name that reports show of the chunk. -/
  chunk : Bytes := []
  /-- Whether a variable around is to be closed. -/
  closing : Bool := false
  deriving Inhabited

/-- Code that can run any number of times, with the state it is in. -/
inductive Code where
  | while (condition : Expr) (body : List Stmt) (act : Activation)
  | repeat (body : List Stmt) (condition : Expr) (act : Activation)
  /-- A loop over integers, with the number of rounds left after the next one. -/
  | countInt (slot : Nat) (value step : Int64) (rounds : Nat) (body : List Stmt) (act : Activation)
  | countFloat (slot : Nat) (value limit step : Float) (body : List Stmt) (act : Activation)
  | iterate (slot count : Nat) (fn state control : Val) (body : List Stmt) (line : Nat)
      (act : Activation)
  /-- The rest of a block that has labels, and the whole block. A condition at the end of the block
  ends a loop when it holds. -/
  | labelled (rest whole : List Stmt) (condition : Option Expr) (act : Activation)
  /-- Code at whose end a value is to be closed. -/
  | closing (value : Val) (inner : Code)
  deriving Inhabited

/-- How code is left. -/
inductive Signal where
  | normal
  | break
  | return (values : List Val)
  /-- Returns what a call returns. -/
  | tailCall (fn : Val) (args : List Val) (site : Site)
  /-- Jumps to a label, with the variables there are. -/
  | jump (label : Bytes) (act : Activation)
  /-- The code is to go on as other code. -/
  | again (code : Code)
  deriving Inhabited

/-- What can be done to coroutines and the stack of calls. -/
inductive Control where
  /-- The place that a function some levels up the stack is at. -/
  | place (level : Nat)
  | create (fn : Val)
  | resume (thread : Nat) (args : List Val)
  | yield (values : List Val)
  | status (thread : Nat)
  | running
  | isYieldable
  | close (thread : Nat)
  deriving Inhabited

/-- What an act comes to. -/
inductive Outcome (α : Type) where
  | done (a : α) (heap : Heap)
  | fail (error : Val) (heap : Heap)
  | call (fn : Val) (args : List Val) (site : Site) (heap : Heap)
      (next : List Val → Heap → Outcome α)
  | enter (code : Code) (heap : Heap) (next : Signal → Heap → Outcome α)
  | guard (fn : Val) (args : List Val) (handler : Option Val) (heap : Heap)
      (next : Except Val (List Val) → Heap → Outcome α)
  | control (c : Control) (heap : Heap) (next : Except Val (List Val) → Heap → Outcome α)
  | ask (request : Request) (heap : Heap) (next : request.Answer → Heap → Outcome α)

namespace Outcome

/-- Goes on with another act when an outcome is done. -/
def bind {α β : Type} (o : Outcome α) (f : α → Heap → Outcome β) : Outcome β :=
  match o with
  | done a heap => f a heap
  | fail error heap => fail error heap
  | call fn args site heap next => call fn args site heap fun r h => (next r h).bind f
  | enter code heap next => enter code heap fun r h => (next r h).bind f
  | guard fn args handler heap next => guard fn args handler heap fun r h => (next r h).bind f
  | control c heap next => control c heap fun r h => (next r h).bind f
  | ask request heap next => ask request heap fun r h => (next r h).bind f

end Outcome

/-- A computation of a script. -/
def Act (α : Type) : Type := Heap → Outcome α

namespace Act

/-- Does nothing but give a value. -/
@[inline] def pure {α : Type} (a : α) : Act α := fun h => .done a h

/-- Does one act after another. -/
@[inline] def bind {α β : Type} (m : Act α) (f : α → Act β) : Act β := fun h => (m h).bind f

instance : Monad Act where
  pure := Act.pure
  bind := Act.bind

instance {α : Type} : Inhabited (Act α) := ⟨fun h => .fail .nil h⟩

/-- Looks something up in the heap. -/
@[inline] def read {α : Type} (f : Heap → α) : Act α := fun h => .done (f h) h

/-- Changes the heap. -/
@[inline] def modify (f : Heap → Heap) : Act Unit := fun h => .done () (f h)

/-- Changes the heap and gives a value. -/
@[inline] def update {α : Type} (f : Heap → α × Heap) : Act α := fun h =>
  let (a, h) := f h
  .done a h

/-- Fails with an error value. -/
def throw {α : Type} (error : Val) : Act α := fun h => .fail error h

/-- Calls a function. -/
def call (fn : Val) (args : List Val) (site : Site) : Act (List Val) := fun h =>
  .call fn args site h fun r h => .done r h

/-- Enters code. -/
def enter (code : Code) : Act Signal := fun h => .enter code h fun s h => .done s h

/-- Calls a function under guard. -/
def guard (fn : Val) (args : List Val) (handler : Option Val) : Act (Except Val (List Val)) :=
  fun h => .guard fn args handler h fun r h => .done r h

/-- Has something done to coroutines or the stack of calls. -/
def control (c : Control) : Act (Except Val (List Val)) := fun h =>
  .control c h fun r h => .done r h

/-- Asks the host. -/
def ask (request : Request) : Act request.Answer := fun h =>
  .ask request h fun r h => .done r h

/-- Fails with the error of a host function. -/
def failHost {α : Type} (text : String) : Act α := fun h =>
  let (id, h) := h.newFailure text
  .fail (.failure id) h

end Act

namespace Site

/-- How errors at a site name its place. -/
def text (s : Site) : Bytes :=
  match s.position with
  | some (chunk, line) => chunk ++ utf8 s!":{line}: "
  | none => []

/-- Fails with a wording that names the place of a site. -/
def throw {α : Type} (s : Site) (wording : Bytes) : Act α := .throw (.str (s.text ++ wording))

/-- The name of what is involved in an error, as the error shows it. -/
def shownName (name : Option (String × Bytes)) : Bytes :=
  match name with
  | some (kind, name) => utf8 s!" ({kind} '" ++ name ++ utf8 "')"
  | none => []

end Site

namespace Activation

/-- The site of a line of the running function. -/
def site (act : Activation) (line : Nat) : Site := ⟨some (act.chunk, line), none⟩

/-- The site of a line of the running function at which something with a name is used. -/
def siteOf (act : Activation) (line : Nat) (name : Option (String × Bytes)) : Site :=
  ⟨some (act.chunk, line), name⟩

/-- The variables up to a slot, followed by other ones. Slots in between belong to the state of a
loop, which no code names. -/
def bind (act : Activation) (slot : Nat) (cells : Array Nat) : Activation :=
  let below := act.cells.extract 0 slot
  { act with cells := below ++ Array.replicate (slot - below.size) 0 ++ cells }

/-- Declares variables with values from a slot on. -/
def declare (act : Activation) (slot : Nat) (values : List Val) : Act Activation := do
  let cells ← Act.update fun h => h.newCells values #[]
  return act.bind slot cells

end Activation

end BracketTemplate.Script
