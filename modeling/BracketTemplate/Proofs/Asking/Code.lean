import Mathlib
import BracketTemplate.Proofs.Asking.Basic
import BracketTemplate.Proofs.Script.Results
import BracketTemplate.Script.Evaluation

/-!
# Scripts ask for nothing

An expression or a statement calls functions and enters code, and all that a script brings about
beyond its heap is brought about by the builtin functions that it calls.  So the code of a script,
taken by itself, makes no request at all: not in an expression, not in a statement or a round of a
loop, and not at the start of a function (`Closure.asks_run`, `Code.asks_perform`).

The targets of an assignment are acts that are left over from its evaluation, and what these ask for
is read off the results that the evaluation can have.
-/

namespace BracketTemplate.Script

variable {α β : Type} {allowed : Request → Prop}

/-! ## Parts of code -/

@[grind ←] lemma asks_first {values : Act (List Val)} (h : values.Asks allowed) :
    (first values).Asks allowed :=
  asks_bind h fun _ => asks_pure _

@[grind ←] lemma asks_single {value : Act Val} (h : value.Asks allowed) :
    (single value).Asks allowed :=
  asks_bind h fun _ => asks_pure _

@[grind ←] lemma asks_makeClosure (act : Activation) (proto : Proto) :
    (act.makeClosure proto).Asks allowed :=
  fun _ => trivial

@[grind ←] lemma asks_storeItems (id first : Nat) (items : List Val) :
    (storeItems id first items).Asks allowed :=
  asks_modify _

@[grind ←] lemma asks_runBlock {run : Activation → Act Signal}
    (h : ∀ act, (run act).Asks allowed) (body : List Stmt) (condition : Option Expr)
    (act : Activation) : (runBlock run body condition act).Asks allowed := by
  unfold runBlock
  grind

@[grind ←] lemma asks_failLoop (site : Site) (what : String) (v : Val) :
    (failLoop site what v : Act α).Asks allowed :=
  fun _ => trivial

@[grind ←] lemma asks_integerLimit (site : Site) (step : Int64) (limit : Val) :
    (integerLimit site step limit).Asks allowed := by
  unfold integerLimit
  grind

@[grind ←] lemma asks_startLoop (site : Site) (slot : Nat) (start limit step : Val)
    (body : List Stmt) (act : Activation) :
    (startLoop site slot start limit step body act).Asks allowed := by
  unfold startLoop
  split
  · dsimp only
    refine asks_ite (asks_bind (asks_siteThrow _ _) fun _ => ?_) ?_
    all_goals
      refine asks_bind (asks_integerLimit _ _ _) fun bound => ?_
      grind
  · grind

@[grind ←] lemma asks_checkClosable (site : Site) (name : Bytes) (v : Val) :
    (checkClosable site name v).Asks allowed :=
  fun _ => Outcome.asks_ite trivial trivial

/-! ## Expressions -/

mutual

@[grind ←] lemma Expr.asks_values (act : Activation) (e : Expr) : (e.values act).Asks allowed := by
  cases e with
  | nil | true | false | number | string | vararg | function | localVar | upvalue =>
    unfold Expr.values
    grind
  | index object key line =>
    have hobject : (object.values act).Asks allowed := Expr.asks_values act object
    have hkey : (key.values act).Asks allowed := Expr.asks_values act key
    unfold Expr.values
    grind
  | call fn args line =>
    have hfn : (fn.values act).Asks allowed := Expr.asks_values act fn
    have hargs : (Expr.listValues act args).Asks allowed := Expr.asks_listValues act args
    unfold Expr.values
    grind
  | method object name args selfLine line =>
    have hobject : (object.values act).Asks allowed := Expr.asks_values act object
    have hargs : (Expr.listValues act args).Asks allowed := Expr.asks_listValues act args
    unfold Expr.values
    grind
  | binary op left right line =>
    have hleft : (left.values act).Asks allowed := Expr.asks_values act left
    have hright : (right.values act).Asks allowed := Expr.asks_values act right
    unfold Expr.values
    grind
  | unary op operand line =>
    have hoperand : (operand.values act).Asks allowed := Expr.asks_values act operand
    unfold Expr.values
    grind
  | concat operands line =>
    have hoperands : (Expr.joined act line operands).Asks allowed :=
      Expr.asks_joined act line operands
    unfold Expr.values
    grind
  | and left right | or left right =>
    have hleft : (left.values act).Asks allowed := Expr.asks_values act left
    have hright : (right.values act).Asks allowed := Expr.asks_values act right
    unfold Expr.values
    grind
  | paren inner =>
    have hinner : (inner.values act).Asks allowed := Expr.asks_values act inner
    unfold Expr.values
    grind
  | table fields =>
    have hfields (id : Nat) : (Expr.fillTable act id 1 [] fields).Asks allowed :=
      Expr.asks_fillTable act id 1 [] fields
    unfold Expr.values
    grind

@[grind ←] lemma Expr.asks_listValues (act : Activation) (es : List Expr) :
    (Expr.listValues act es).Asks allowed := by
  match es with
  | [] => exact asks_pure _
  | [e] => exact Expr.asks_values act e
  | e :: e' :: rest =>
    have hvalues : (e.values act).Asks allowed := Expr.asks_values act e
    have hrest : (Expr.listValues act (e' :: rest)).Asks allowed :=
      Expr.asks_listValues act (e' :: rest)
    unfold Expr.listValues
    grind

lemma Expr.asks_joined (act : Activation) (line : Nat) (es : List Expr) :
    (Expr.joined act line es).Asks allowed := by
  match es with
  | [] => exact asks_pure _
  | [e] =>
    have hvalues : (e.values act).Asks allowed := Expr.asks_values act e
    unfold Expr.joined
    grind
  | e :: e' :: rest =>
    have hvalues : (e.values act).Asks allowed := Expr.asks_values act e
    have hrest : (Expr.joined act line (e' :: rest)).Asks allowed :=
      Expr.asks_joined act line (e' :: rest)
    unfold Expr.joined
    grind

lemma Expr.asks_fillTable (act : Activation) (id start : Nat) (waiting : List Val)
    (fields : List Field) : (Expr.fillTable act id start waiting fields).Asks allowed := by
  match fields with
  | [] => exact asks_storeItems _ _ _
  | [.item e] =>
    have hvalues : (e.values act).Asks allowed := Expr.asks_values act e
    unfold Expr.fillTable
    grind
  | .item e :: field :: rest =>
    have hvalues : (e.values act).Asks allowed := Expr.asks_values act e
    have hrest (start : Nat) (waiting : List Val) :
        (Expr.fillTable act id start waiting (field :: rest)).Asks allowed :=
      Expr.asks_fillTable act id start waiting (field :: rest)
    unfold Expr.fillTable
    grind
  | .entry key value line :: rest =>
    have hkey : (key.values act).Asks allowed := Expr.asks_values act key
    have hvalue : (value.values act).Asks allowed := Expr.asks_values act value
    have hrest : (Expr.fillTable act id start waiting rest).Asks allowed :=
      Expr.asks_fillTable act id start waiting rest
    unfold Expr.fillTable
    grind

end

@[grind ←] lemma Expr.asks_eval (act : Activation) (e : Expr) : (e.eval act).Asks allowed :=
  asks_first (e.asks_values act)

/-! ## Assignments -/

/-- What finding out and writing to a target asks for. -/
def Target.Asks (allowed : Request → Prop) : Target → Prop
  | cell _ => True
  | field object key _ => object.Asks allowed ∧ key.Asks allowed

lemma asks_storeAll {targets : List Target} (h : ∀ t ∈ targets, t.Asks allowed)
    (values : List Val) : (storeAll targets values).Asks allowed := by
  induction targets generalizing values with
  | nil => exact asks_pure _
  | cons t rest ih =>
    obtain ⟨ht, hrest⟩ := List.forall_mem_cons.1 h
    refine asks_bind (ih hrest _) fun _ => ?_
    cases t with
    | cell id => exact asks_modify _
    | field object key site =>
      exact asks_bind ht.1 fun o => asks_bind ht.2 fun k => Operation.asks_setIndex _ _ _ _

/-- What is left of a part of a target asks for nothing, be it evaluated already or not. -/
lemma gives_operandIf {act : Activation} {e : Expr} (now : Bool) {m : Act Val} {h left : Heap}
    (hgives : ((if now then do return pure (← e.eval act) else return e.eval act :
      Act (Act Val)) h).Gives m left) : m.Asks allowed := by
  cases now with
  | true =>
    obtain ⟨v, h', -, hgives⟩ := gives_bind.1 hgives
    obtain ⟨rfl, -⟩ := gives_pure.1 hgives
    exact asks_pure v
  | false =>
    obtain ⟨rfl, -⟩ := gives_pure.1 hgives
    exact e.asks_eval act

/-- A part of a target is evaluated at once or left over, by what the statement assigns. -/
lemma gives_operand {act : Activation} {e : Expr} {assigned : List Nat} {m : Act Val}
    {h left : Heap}
    (hgives : ((match e.slot? with
      | some slot =>
        if assigned.contains slot then do return pure (← e.eval act) else return e.eval act
      | none => if e.isLateTable then return e.eval act else do return pure (← e.eval act) :
      Act (Act Val)) h).Gives m left) : m.Asks allowed := by
  cases hslot : e.slot? with
  | some slot =>
    simp only [hslot] at hgives
    exact gives_operandIf _ hgives
  | none =>
    simp only [hslot] at hgives
    cases hlate : e.isLateTable with
    | true =>
      simp only [hlate, if_true] at hgives
      exact gives_operandIf false hgives
    | false =>
      simp only [hlate] at hgives
      exact gives_operandIf true hgives

/-- The targets that are evaluated ask for nothing when they are written to. -/
lemma gives_evalTargets {act : Activation} {targets : List Expr} {ts : List Target}
    {h left : Heap} (hgives : (evalTargets act targets h).Gives ts left) :
    ∀ t ∈ ts, t.Asks allowed := by
  induction targets generalizing ts h left with
  | nil =>
    obtain ⟨rfl, -⟩ := hgives
    simp
  | cons target rest ih =>
    have hnext (t : Target) (ht : t.Asks allowed) {h : Heap}
        (hgives : ((do return t :: (← evalTargets act rest) : Act (List Target)) h).Gives ts left) :
        ∀ t ∈ ts, t.Asks allowed := by
      obtain ⟨ts, h', hrest, hgives⟩ := gives_bind.1 hgives
      obtain ⟨rfl, -⟩ := gives_pure.1 hgives
      exact List.forall_mem_cons.2 ⟨ht, ih hrest⟩
    unfold evalTargets at hgives
    cases target
    case localVar slot name => exact hnext (.cell _) trivial hgives
    case upvalue i name => exact hnext (.cell _) trivial hgives
    case index object key line =>
      obtain ⟨o, h₁, ho, hgives⟩ := gives_bind.1 hgives
      obtain ⟨k, h₂, hk, hgives⟩ := gives_bind.1 hgives
      exact hnext (.field o k _) ⟨gives_operand ho, gives_operand hk⟩ hgives
    all_goals exact hnext (.cell 0) trivial hgives

lemma asks_evalTargets (act : Activation) (targets : List Expr) :
    (evalTargets act targets).Asks allowed := by
  induction targets with
  | nil => exact asks_pure _
  | cons target rest ih =>
    unfold evalTargets
    cases target <;> grind

lemma asks_assign (act : Activation) (targets values : List Expr) :
    (Stmt.exec act (.assign targets values)).Asks allowed := by
  unfold Stmt.exec
  refine asks_bind_gives (asks_evalTargets act targets) fun h ts left hts => ?_
  refine asks_bind (Expr.asks_listValues act values) fun vs => ?_
  exact asks_bind (asks_storeAll (gives_evalTargets hts) _) fun _ => asks_pure _

/-! ## Statements -/

@[grind ←] lemma asks_untilSignal (act : Activation) (condition : Option Expr) :
    (untilSignal act condition).Asks allowed := by
  unfold untilSignal
  grind

mutual

lemma Stmt.asks_exec (act : Activation) (s : Stmt) : (s.exec act).Asks allowed := by
  cases s with
  | assign targets values => exact asks_assign act targets values
  | numericFor slot start limit step body line =>
    unfold Stmt.exec
    refine asks_bind (start.asks_eval act) fun first =>
      asks_bind (limit.asks_eval act) fun bound => ?_
    have hstart (stride : Val) : (do
        match ← startLoop (act.site line) slot first bound stride body act with
        | some code => Act.enter code
        | none => return .normal).Asks allowed := by
      refine asks_bind (asks_startLoop _ _ _ _ _ _ _) fun code => ?_
      cases code with
      | some code => exact asks_enter code
      | none => exact asks_pure _
    cases step with
    | some e => exact asks_bind (e.asks_eval act) hstart
    | none => exact asks_bind (asks_pure _) hstart
  | block body =>
    have hbody (act : Activation) : (Stmt.execAll act none body).Asks allowed :=
      Stmt.asks_execAll act none body
    unfold Stmt.exec
    grind
  | «if» clauses otherwise =>
    have hotherwise (act : Activation) : (Stmt.execAll act none otherwise).Asks allowed :=
      Stmt.asks_execAll act none otherwise
    unfold Stmt.exec
    exact Stmt.asks_execClauses act otherwise (asks_runBlock hotherwise _ _ _) clauses
  | _ =>
    unfold Stmt.exec
    grind

lemma Stmt.asks_execClauses (act : Activation) (otherwise : List Stmt) {last : Act Signal}
    (hlast : last.Asks allowed) (clauses : List Clause) :
    (Stmt.execClauses act otherwise last clauses).Asks allowed := by
  match clauses with
  | [] => exact hlast
  | .mk condition body :: rest =>
    have hbody (act : Activation) : (Stmt.execAll act none body).Asks allowed :=
      Stmt.asks_execAll act none body
    have hrest : (Stmt.execClauses act otherwise last rest).Asks allowed :=
      Stmt.asks_execClauses act otherwise hlast rest
    unfold Stmt.execClauses
    grind

lemma Stmt.asks_execAll (act : Activation) (condition : Option Expr) (body : List Stmt) :
    (Stmt.execAll act condition body).Asks allowed := by
  match body with
  | [] => exact asks_untilSignal act condition
  | s :: rest =>
    have hs : (s.exec act).Asks allowed := Stmt.asks_exec act s
    have hrest (act : Activation) : (Stmt.execAll act condition rest).Asks allowed :=
      Stmt.asks_execAll act condition rest
    unfold Stmt.execAll
    grind

end

/-! ## Code -/

@[grind ←] lemma asks_loopRound {round next : Act Signal} (hround : round.Asks allowed)
    (hnext : next.Asks allowed) : (loopRound round next).Asks allowed := by
  unfold loopRound
  grind

@[grind ←] lemma asks_runBody (body : List Stmt) (act : Activation) :
    (runBody body act).Asks allowed :=
  asks_runBlock (fun act => Stmt.asks_execAll act none body) body none act

/-- **Running code once asks for nothing.** -/
theorem Code.asks_perform (code : Code) : code.perform.Asks allowed := by
  have hblock (act : Activation) (condition : Option Expr) (body : List Stmt) :
      (Stmt.execAll act condition body).Asks allowed := Stmt.asks_execAll act condition body
  cases code <;> unfold Code.perform <;> grind

/-- **A function of the script asks for nothing**, up to the calls that it makes. -/
theorem Closure.asks_run (c : Closure) (args : List Val) : (c.run args).Asks allowed := by
  have hbody (act : Activation) : (Stmt.execAll act none c.proto.body).Asks allowed :=
    Stmt.asks_execAll act none c.proto.body
  unfold Closure.run
  grind

end BracketTemplate.Script
