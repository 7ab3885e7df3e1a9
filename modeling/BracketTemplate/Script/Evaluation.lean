import BracketTemplate.Script.Operation

/-!
# The meaning of scripts

Expressions and statements as acts. Both are defined by recursion on their trees: a loop is code
that the act enters, a call is a wish of the act, and so no definition here runs any loop.

Operands are evaluated from left to right, with one exception: an operand that is a local variable
is read when the operation takes place, after the operands behind it. Assignments write their
targets from right to left.
-/

namespace BracketTemplate.Script

/-! ## What errors say of an expression -/

namespace Expr

/-- Whether the expression is the table of the global variables. -/
def isEnvironment : Expr → Bool
  | localVar _ name | upvalue _ name => name == utf8 "_ENV"
  | _ => Bool.false

/-- The kind and the name of an expression, as far as an error can tell. -/
def describe : Expr → Option (String × Bytes)
  | localVar _ name => some ("local", name)
  | upvalue _ name => some ("upvalue", name)
  | string text => some ("constant", text)
  | index object key _ =>
    let kind := if object.isEnvironment then "global" else "field"
    match key with
    | string text => some (kind, text)
    | number (.int i) =>
      if 0 ≤ i && i ≤ 255 then some ("field", utf8 "integer index") else some (kind, utf8 "?")
    | _ => some (kind, utf8 "?")
  | paren inner => inner.describe
  | _ => none

/-- Whether the expression is read only when it is used. -/
def isLate : Expr → Bool
  | localVar .. => Bool.true
  | paren inner => inner.isLate
  | _ => Bool.false

/-- Whether the expression is a variable, which as a table is looked at only when it is used. -/
def isLateTable : Expr → Bool
  | localVar .. | upvalue .. => Bool.true
  | _ => Bool.false

end Expr

namespace Activation

/-- The cell of a local variable. -/
def localCell (act : Activation) (slot : Nat) : Nat := act.cells[slot]?.getD 0

/-- The cell of an upvalue. -/
def upvalueCell (act : Activation) (i : Nat) : Nat := act.upvalues[i]?.getD 0

/-- Makes a function of the script, with the cells of the variables it takes from here. -/
def makeClosure (act : Activation) (proto : Proto) : Act Val :=
  let upvalues := (proto.upvalues.map fun u =>
    if u.isLocal then act.localCell u.index else act.upvalueCell u.index).toArray
  .update fun h =>
    let (id, h) := h.newClosure { chunk := act.chunk, proto, upvalues }
    (.closure id, h)

end Activation

/-- The first so many of some values, with `nil` for those that are missing. -/
def adjust : Nat → List Val → List Val
  | 0, _ => []
  | n + 1, [] => .nil :: adjust n []
  | n + 1, v :: rest => v :: adjust n rest

/-! ## Tables -/

/-- How many items a table constructor stores at a time. -/
def itemBatch : Nat := 50

/-- Stores items from an index on. -/
def storeItems (id first : Nat) (items : List Val) : Act Unit := .modify fun h =>
  h.onTable id fun t =>
    let last := first + items.length - 1
    let t := if t.items.size < last then t.resize last t.capacity else t
    (items.foldl (fun (t, i) v => (t.setInt i v, i + 1)) (t, first)).1

/-- The numbers of items and of entries that a constructor is known to have. -/
def fieldCounts : List Field → Nat × Nat
  | [] => (0, 0)
  | [.item e] => if e.isMulti then (0, 0) else (1, 0)
  | .item _ :: rest => let (items, entries) := fieldCounts rest; (items + 1, entries)
  | .entry .. :: rest => let (items, entries) := fieldCounts rest; (items, entries + 1)

/-! ## Blocks -/

/-- Whether some statement of a block is a label. -/
def hasLabels (body : List Stmt) : Bool := body.any fun
  | .label _ => true
  | _ => false

/-- The statements behind a label of a block. -/
def behindLabel? (label : Bytes) : List Stmt → Option (List Stmt)
  | [] => none
  | .label name :: rest => if name == label then some rest else behindLabel? label rest
  | _ :: rest => behindLabel? label rest

/-- Runs a block by `run`, or enters it when it has labels. -/
def runBlock (run : Activation → Act Signal) (body : List Stmt) (condition : Option Expr)
    (act : Activation) : Act Signal :=
  if hasLabels body then .enter (.labelled body body condition act) else run act

/-! ## Assignments -/

/-- A target of an assignment, with its table and its key as far as they are evaluated. -/
inductive Target where
  | cell (id : Nat)
  | field (object key : Act Val) (site : Site)

/-- The slot of a local variable. -/
def Expr.slot? : Expr → Option Nat
  | .localVar slot _ => some slot
  | _ => none

/-- Assigns to a target. -/
def Target.store (v : Val) : Target → Act Unit
  | cell id => .modify fun h => h.setCell id v
  | field object key site => do
    let object ← object
    let key ← key
    Operation.setIndex site object key v

/-- Assigns values to targets, the last first. -/
def storeAll : List Target → List Val → Act Unit
  | [], _ => pure ()
  | t :: rest, values => do
    storeAll rest values.tail
    t.store (values.headD .nil)

/-! ## Loops -/

/-- Fails because a value of a loop is no number. -/
def failLoop {α : Type} (site : Site) (what : String) (v : Val) : Act α := fun h =>
  site.throw (utf8 s!"bad 'for' {what} (number expected, got " ++ h.typeText v ++ utf8 ")") h

/-- The limit of a loop over integers: the last integer that does not pass it; none when there is no
such integer. -/
def integerLimit (site : Site) (step : Int64) (limit : Val) : Act (Option Int64) :=
  match limit.toNumber? with
  | none => failLoop site "limit" limit
  | some (.int i) => pure (some i)
  | some (.float x) => pure <|
    match Binary64.ofFloat x with
    | .nan => none
    | .infinite negative =>
      if negative == (step < 0) then some (if negative then Int64.minValue else Int64.maxValue)
      else none
    | .finite negative m e =>
      let floor := Binary64.floorInt negative m e
      let bound := if step < 0 && !Binary64.isIntegral m e then floor + 1 else floor
      if bound < -(twoTo 63) then (if step < 0 then some Int64.minValue else none)
      else if twoTo 63 ≤ bound then (if step < 0 then none else some Int64.maxValue)
      else some (Int64.ofInt bound)

/-- Starts a loop over numbers; none when it has no round. -/
def startLoop (site : Site) (slot : Nat) (start limit step : Val) (body : List Stmt)
    (act : Activation) : Act (Option Code) :=
  match start, step with
  | .int i, .int s => do
    if s == 0 then site.throw (utf8 "'for' step is zero")
    match ← integerLimit site s limit with
    | none => return none
    | some bound =>
      if (if 0 < s then bound < i else i < bound) then return none
      else
        let distance := (bound.toInt - i.toInt).natAbs
        return some (.countInt slot i s (distance / s.toInt.natAbs) body act)
  | _, _ => do
    let some bound := limit.toFloat? | failLoop site "limit" limit
    let some stride := step.toFloat? | failLoop site "step" step
    let some first := start.toFloat? | failLoop site "initial value" start
    if stride == 0 then site.throw (utf8 "'for' step is zero")
    if (if 0 < stride then bound < first else first < bound) then return none
    else return some (.countFloat slot first bound stride body act)

/-! ## Expressions -/

/-- The first of some values, `nil` when there is none. -/
@[inline] def first (values : Act (List Val)) : Act Val := do return (← values).headD .nil

/-- A single value as a list. -/
@[inline] def single (value : Act Val) : Act (List Val) := do return [← value]

mutual

/-- The values of an expression: any number for a call and for the arguments of a function, one for
all others. -/
def Expr.values (act : Activation) : Expr → Act (List Val)
  | .nil => pure [.nil]
  | .true => pure [.bool Bool.true]
  | .false => pure [.bool Bool.false]
  | .number n => pure [.ofNumber n]
  | .string text => pure [.str text]
  | .vararg => pure act.varargs
  | .localVar slot _ => .read fun h => [h.cell (act.localCell slot)]
  | .upvalue i _ => .read fun h => [h.cell (act.upvalueCell i)]
  | .index object key line => single do
    let late := object.isLateTable
    let o ← if late then pure Val.nil else first (object.values act)
    let k ← first (key.values act)
    let o ← if late then first (object.values act) else pure o
    Operation.index (act.siteOf line object.describe) o k
  | .call fn args line => do
    let f ← first (fn.values act)
    let vs ← Expr.listValues act args
    Act.call f vs (act.siteOf line fn.describe)
  | .method object name args selfLine line => do
    let o ← first (object.values act)
    let f ← Operation.index (act.siteOf selfLine object.describe) o (.str name)
    let vs ← Expr.listValues act args
    Act.call f (o :: vs) (act.siteOf line (some ("method", name)))
  | .function proto => single (act.makeClosure proto)
  | .binary op left right line => single do
    let late := left.isLate
    let a ← if late then pure Val.nil else first (left.values act)
    let b ← first (right.values act)
    let a ← if late then first (left.values act) else pure a
    let site := act.site line
    match op with
    | .eq => return .bool (← Operation.equal site a b)
    | .ne => return .bool !(← Operation.equal site a b)
    | .lt => return .bool (← Operation.lessThan site a b)
    | .le => return .bool (← Operation.lessEqual site a b)
    | .gt => return .bool (← Operation.lessThan site b a)
    | .ge => return .bool (← Operation.lessEqual site b a)
    | op => Operation.arithmetic site op a b left.describe right.describe
  | .unary op operand line => single do
    let v ← first (operand.values act)
    let site := act.site line
    match op with
    | .not => return .bool !v.truthy
    | .neg => Operation.negate site v operand.describe
    | .bnot => Operation.complement site v operand.describe
    | .len => Operation.length site v operand.describe
  | .concat operands line => single do
    return (← Expr.joined act line operands).1
  | .and left right => do
    let v ← first (left.values act)
    if v.truthy then single (first (right.values act)) else pure [v]
  | .or left right => do
    let v ← first (left.values act)
    if v.truthy then pure [v] else single (first (right.values act))
  | .paren inner => single (first (inner.values act))
  | .table fields => single do
    let (items, entries) := fieldCounts fields
    let id ← Act.update fun h => h.newTable (.withRoom items entries)
    Expr.fillTable act id 1 [] fields
    return .table id

/-- The values of expressions: one of each, and all of the last. -/
def Expr.listValues (act : Activation) : List Expr → Act (List Val)
  | [] => pure []
  | [e] => e.values act
  | e :: rest => do
    let v ← first (e.values act)
    return v :: (← Expr.listValues act rest)

/-- The values of expressions joined into one, with the name of the leftmost expression. -/
def Expr.joined (act : Activation) (line : Nat) : List Expr → Act (Val × Operation.Name)
  | [] => pure (.str [], none)
  | [e] => do
    let v ← first (e.values act)
    return (v, e.describe)
  | e :: rest => do
    let v ← first (e.values act)
    let (w, name) ← Expr.joined act line rest
    return (← Operation.concat (act.site line) v w e.describe name, e.describe)

/-- Fills a table with the fields of its constructor; `waiting` are items not yet stored, backwards,
and the first of them belongs to the index `start`. -/
def Expr.fillTable (act : Activation) (id start : Nat) (waiting : List Val) : List Field → Act Unit
  | [] => storeItems id start waiting.reverse
  | [.item e] => do
    let vs ← e.values act
    storeItems id start (waiting.reverse ++ if e.isMulti then vs else [vs.headD .nil])
  | .item e :: rest => do
    let v ← first (e.values act)
    let waiting := v :: waiting
    if waiting.length == itemBatch then
      storeItems id start waiting.reverse
      Expr.fillTable act id (start + itemBatch) [] rest
    else Expr.fillTable act id start waiting rest
  | .entry key value line :: rest => do
    let k ← first (key.values act)
    let v ← first (value.values act)
    Operation.rawSet (act.site line) id k v
    Expr.fillTable act id start waiting rest

end

/-- The value of an expression. -/
def Expr.eval (act : Activation) (e : Expr) : Act Val := first (e.values act)

/-- The targets of an assignment. A variable that is assigned itself by the same statement is read
at once where it is a table or a key of a target; other local variables are read when the assignment
takes place. -/
def evalTargets (act : Activation) : List Expr → Act (List Target)
  | [] => pure []
  | target :: rest => do
    let assigned := rest.filterMap Expr.slot?
    let operand (e : Expr) : Act (Act Val) := do
      match e.slot? with
      | some slot =>
        if assigned.contains slot then return pure (← e.eval act) else return e.eval act
      | none => if e.isLateTable then return e.eval act else return pure (← e.eval act)
    let t ← match target with
      | .localVar slot _ => pure (.cell (act.localCell slot))
      | .upvalue i _ => pure (.cell (act.upvalueCell i))
      | .index object key line => do
        let o ← operand object
        let k ← operand key
        pure (.field o k (act.siteOf line object.describe))
      | _ => pure (.cell 0)
    return t :: (← evalTargets act rest)

/-! ## Statements -/

/-- Refuses to close a value that nothing closes. -/
def checkClosable (site : Site) (name : Bytes) (v : Val) : Act Unit := fun h =>
  if !v.truthy || !(h.metafield v "__close").isNil then .done () h
  else site.throw (utf8 "variable '" ++ name ++ utf8 "' got a non-closable value") h

/-- A signal for a condition at the end of a block: the loop ends when it holds. -/
def untilSignal (act : Activation) : Option Expr → Act Signal
  | none => pure .normal
  | some condition => do
    return if (← condition.eval act).truthy then .break else .normal

mutual

/-- Runs one statement that declares nothing. -/
def Stmt.exec (act : Activation) : Stmt → Act Signal
  | .localVars .. | .localFunction .. | .label _ => pure .normal
  | .assign targets values => do
    let ts ← evalTargets act targets
    let vs ← Expr.listValues act values
    storeAll ts (adjust ts.length vs)
    return .normal
  | .call e => do
    let _ ← e.values act
    return .normal
  | .block body => runBlock (fun act => Stmt.execAll act none body) body none act
  | .while condition body => .enter (.while condition body act)
  | .repeat body condition => .enter (.repeat body condition act)
  | .if clauses otherwise => Stmt.execClauses act otherwise
      (runBlock (fun act => Stmt.execAll act none otherwise) otherwise none act) clauses
  | .numericFor slot start limit step body line => do
    let first ← start.eval act
    let bound ← limit.eval act
    let stride ← match step with
      | some e => e.eval act
      | none => pure (.int 1)
    match ← startLoop (act.site line) slot first bound stride body act with
    | some code => .enter code
    | none => return .normal
  | .genericFor slot count values body line => do
    let vs := adjust 4 (← Expr.listValues act values)
    match vs with
    | [fn, state, control, closing] =>
      let code := Code.iterate slot count fn state control body line { act with closing := true }
      if closing.truthy then
        checkClosable (act.site line) (utf8 "(for state)") closing
        .enter (.closing closing code)
      else .enter code
    | _ => return .normal
  | .return values =>
    match values with
    | [.call fn args line] =>
      if act.closing then return .return (← Expr.values act (.call fn args line))
      else do
        let f ← fn.eval act
        let vs ← Expr.listValues act args
        return .tailCall f vs (act.siteOf line fn.describe)
    | [.method object name args selfLine line] =>
      if act.closing then
        return .return (← Expr.values act (.method object name args selfLine line))
      else do
        let o ← object.eval act
        let f ← Operation.index (act.siteOf selfLine object.describe) o (.str name)
        let vs ← Expr.listValues act args
        return .tailCall f (o :: vs) (act.siteOf line (some ("method", name)))
    | _ => return .return (← Expr.listValues act values)
  | .break => pure .break
  | .goto name => pure (.jump name act)

/-- Runs the first clause whose condition holds. -/
def Stmt.execClauses (act : Activation) (otherwise : List Stmt) (last : Act Signal) :
    List Clause → Act Signal
  | [] => last
  | .mk condition body :: rest => do
    if (← condition.eval act).truthy then
      runBlock (fun act => Stmt.execAll act none body) body none act
    else Stmt.execClauses act otherwise last rest

/-- Runs the statements of a block, then the condition at its end if there is one. -/
def Stmt.execAll (act : Activation) (condition : Option Expr) : List Stmt → Act Signal
  | [] => untilSignal act condition
  | .localVars slot count closing names values line :: rest => do
    let vs := adjust count (← Expr.listValues act values)
    let act ← act.declare slot vs
    match closing with
    | none => Stmt.execAll act condition rest
    | some i =>
      let v := vs[i]?.getD .nil
      checkClosable (act.site line) (names[i]?.getD []) v
      .enter (.closing v (.labelled rest rest condition { act with closing := true }))
  | .localFunction slot proto :: rest => do
    let act ← act.declare slot [.nil]
    let fn ← act.makeClosure proto
    Act.modify fun h => h.setCell (act.localCell slot) fn
    Stmt.execAll act condition rest
  | s :: rest => do
    match ← s.exec act with
    | .normal => Stmt.execAll act condition rest
    | signal => return signal

end

/-! ## Code -/

/-- Runs a round of a loop: `next` says how the loop goes on. -/
def loopRound (round : Act Signal) (next : Act Signal) : Act Signal := do
  match ← round with
  | .normal => next
  | .break => return .normal
  | signal => return signal

/-- Runs a block as the body of a loop. -/
def runBody (body : List Stmt) (act : Activation) : Act Signal :=
  runBlock (fun act => Stmt.execAll act none body) body none act

/-- Runs code once. Code that is to go on says so by its signal. -/
def Code.perform : Code → Act Signal
  | .while condition body act => do
    if (← condition.eval act).truthy then
      loopRound (runBody body act) (pure (.again (.while condition body act)))
    else return .normal
  | .repeat body condition act =>
    loopRound
      (runBlock (fun act => Stmt.execAll act (some condition) body) body (some condition) act)
      (pure (.again (.repeat body condition act)))
  | .countInt slot value step rounds body act => do
    let inner ← act.declare slot [.int value]
    loopRound (runBody body inner) do
      match rounds with
      | 0 => return .normal
      | rounds + 1 => return .again (.countInt slot (value + step) step rounds body act)
  | .countFloat slot value limit step body act => do
    let inner ← act.declare slot [.float value]
    loopRound (runBody body inner) do
      let value := value + step
      if (if 0 < step then value ≤ limit else limit ≤ value) then
        return .again (.countFloat slot value limit step body act)
      else return .normal
  | .iterate slot count fn state control body line act => do
    let name := some ("for iterator", utf8 "for iterator")
    let vs := adjust count (← Act.call fn [state, control] (act.siteOf line name))
    match vs with
    | [] => return .normal
    | .nil :: _ => return .normal
    | control :: _ =>
      let inner ← act.declare slot vs
      loopRound (runBody body inner)
        (pure (.again (.iterate slot count fn state control body line act)))
  | .labelled rest whole condition act => do
    match ← Stmt.execAll act condition rest with
    | .jump label act =>
      match behindLabel? label whole with
      | some rest => return .again (.labelled rest whole condition act)
      | none => return .jump label act
    | signal => return signal
  | .closing _ inner => .enter inner

/-- Calls a function of the script: its parameters get the arguments, and a function that takes any
number keeps what is left. -/
def Closure.run (c : Closure) (args : List Val) : Act Signal := do
  let n := c.proto.parameters
  let act : Activation :=
    { upvalues := c.upvalues
      varargs := if c.proto.isVararg then args.drop n else []
      chunk := c.chunk }
  let act ← act.declare 0 (adjust n args)
  runBlock (fun act => Stmt.execAll act none c.proto.body) c.proto.body none act

end BracketTemplate.Script
