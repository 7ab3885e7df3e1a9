import Mathlib
import BracketTemplate.Proofs.Script.Results
import BracketTemplate.Script.Conversion

/-!
# What acts ask for

An act reaches the world outside of the heap by asking the host.  `Act.Asks` bounds the requests
that an act can make, whatever it is answered on its way and whatever the functions that it calls
give back; what those functions ask for is their own.  The bound of an act is put together from
those of its parts: the rules for this are tagged, so that for an act without a loop its definition
is all that is needed.

The operations on values, the arguments of builtin functions, and the conversions between values of
scripts and of templates ask for nothing themselves.
-/

namespace BracketTemplate.Script

variable {α β : Type} {allowed wider : Request → Prop}

/-! ## Outcomes -/

/-- Whatever an outcome is answered on its way, it makes allowed requests only. -/
def Outcome.Asks (allowed : Request → Prop) : Outcome α → Prop
  | .done _ _ => True
  | .fail _ _ => True
  | .call _ _ _ _ next => ∀ r h, (next r h).Asks allowed
  | .enter _ _ next => ∀ r h, (next r h).Asks allowed
  | .guard _ _ _ _ next => ∀ r h, (next r h).Asks allowed
  | .control _ _ next => ∀ r h, (next r h).Asks allowed
  | .ask request _ next => allowed request ∧ ∀ r h, (next r h).Asks allowed

namespace Outcome

lemma Asks.mono {o : Outcome α} (h : o.Asks allowed) (hallowed : ∀ r, allowed r → wider r) :
    o.Asks wider := by
  induction o with
  | done _ _ | fail _ _ => trivial
  | call _ _ _ _ next ih | enter _ _ next ih | guard _ _ _ _ next ih | control _ _ next ih =>
    exact fun r heap => ih r heap (h r heap)
  | ask request _ next ih => exact ⟨hallowed _ h.1, fun r heap => ih r heap (h.2 r heap)⟩

/-- One after another: what goes on has to be bounded only for the results that there can be. -/
lemma Asks.bind_gives {o : Outcome α} {f : α → Heap → Outcome β} (h : o.Asks allowed)
    (hf : ∀ a heap, o.Gives a heap → (f a heap).Asks allowed) : (o.bind f).Asks allowed := by
  induction o with
  | done a heap => exact hf a heap ⟨rfl, rfl⟩
  | fail _ _ => trivial
  | call _ _ _ _ next ih | enter _ _ next ih | guard _ _ _ _ next ih | control _ _ next ih =>
    exact fun r heap => ih r heap (h r heap) fun a left ha => hf a left ⟨r, heap, ha⟩
  | ask request _ next ih =>
    exact ⟨h.1, fun r heap => ih r heap (h.2 r heap) fun a left ha => hf a left ⟨r, heap, ha⟩⟩

lemma Asks.bind {o : Outcome α} {f : α → Heap → Outcome β} (h : o.Asks allowed)
    (hf : ∀ a heap, (f a heap).Asks allowed) : (o.bind f).Asks allowed :=
  h.bind_gives fun a heap _ => hf a heap

/-- What handles the errors of an outcome makes allowed requests, too. -/
lemma Asks.onFail {o : Outcome α} {f : Val → Heap → Outcome α} (h : o.Asks allowed)
    (hf : ∀ e heap, (f e heap).Asks allowed) : (o.onFail f).Asks allowed := by
  induction o with
  | done _ _ => trivial
  | fail e heap => exact hf e heap
  | call _ _ _ _ next ih | enter _ _ next ih | guard _ _ _ _ next ih | control _ _ next ih =>
    exact fun r heap => ih r heap (h r heap)
  | ask request _ next ih => exact ⟨h.1, fun r heap => ih r heap (h.2 r heap)⟩

lemma asks_ite {c : Prop} [Decidable c] {o o' : Outcome α} (h : o.Asks allowed)
    (h' : o'.Asks allowed) : (if c then o else o').Asks allowed := by
  split
  · exact h
  · exact h'

end Outcome

/-! ## Acts -/

/-- On no heap an act makes a request that is not allowed. -/
def Act.Asks (allowed : Request → Prop) (m : Act α) : Prop := ∀ h, (m h).Asks allowed

lemma Act.Asks.mono {m : Act α} (h : m.Asks allowed) (hallowed : ∀ r, allowed r → wider r) :
    m.Asks wider :=
  fun heap => (h heap).mono hallowed

lemma asks_bind_gives {m : Act α} {f : α → Act β} (hm : m.Asks allowed)
    (hf : ∀ h a left, (m h).Gives a left → (f a).Asks allowed) : (m >>= f).Asks allowed :=
  fun h => (hm h).bind_gives fun a heap ha => hf h a heap ha heap

@[grind ←] lemma asks_bind {m : Act α} {f : α → Act β} (hm : m.Asks allowed)
    (hf : ∀ a, (f a).Asks allowed) : (m >>= f).Asks allowed :=
  asks_bind_gives hm fun _ a _ _ => hf a

@[grind ←] lemma asks_pure (a : α) : (pure a : Act α).Asks allowed := fun _ => trivial

@[grind ←] lemma asks_map (f : α → β) {m : Act α} (h : m.Asks allowed) : (f <$> m).Asks allowed :=
  asks_bind h fun _ => asks_pure _

lemma asks_ite {c : Prop} [Decidable c] {m m' : Act α} (h : m.Asks allowed) (h' : m'.Asks allowed) :
    (if c then m else m').Asks allowed := by
  split
  · exact h
  · exact h'

@[grind ←] lemma asks_read (f : Heap → α) : (Act.read f).Asks allowed := fun _ => trivial

@[grind ←] lemma asks_modify (f : Heap → Heap) : (Act.modify f).Asks allowed := fun _ => trivial

@[grind ←] lemma asks_update (f : Heap → α × Heap) : (Act.update f).Asks allowed := fun _ => trivial

@[grind ←] lemma asks_throw (e : Val) : (Act.throw e : Act α).Asks allowed := fun _ => trivial

@[grind ←] lemma asks_call (fn : Val) (args : List Val) (site : Site) :
    (Act.call fn args site).Asks allowed :=
  fun _ _ _ => trivial

@[grind ←] lemma asks_enter (c : Code) : (Act.enter c).Asks allowed := fun _ _ _ => trivial

@[grind ←] lemma asks_guard (fn : Val) (args : List Val) (handler : Option Val) :
    (Act.guard fn args handler).Asks allowed :=
  fun _ _ _ => trivial

@[grind ←] lemma asks_control (c : Control) : (Act.control c).Asks allowed := fun _ _ _ => trivial

@[grind ←] lemma asks_ask {r : Request} (h : allowed r) : (Act.ask r).Asks allowed :=
  fun _ => ⟨h, fun _ _ => trivial⟩

@[grind ←] lemma asks_failHost (text : String) : (Act.failHost text : Act α).Asks allowed :=
  fun _ => trivial

@[grind ←] lemma asks_siteThrow (s : Site) (wording : Bytes) :
    (s.throw wording : Act α).Asks allowed :=
  fun _ => trivial

@[grind ←] lemma asks_declare (act : Activation) (slot : Nat) (values : List Val) :
    (act.declare slot values).Asks allowed := by
  unfold Activation.declare
  grind

/-- Acts in turn make the requests that each of them makes. -/
@[grind ←] lemma asks_mapM {f : α → Act β} (h : ∀ a, (f a).Asks allowed) (l : List α) :
    (l.mapM f).Asks allowed := by
  suffices hloop : ∀ done, (List.mapM.loop f l done).Asks allowed from hloop []
  induction l with
  | nil => exact fun done => asks_pure _
  | cons a l ih => exact fun done => asks_bind (h a) fun b => ih (b :: done)

/-! ## Operations -/

namespace Operation

@[grind ←] lemma asks_failType (site : Site) (what : String) (v : Val) (name : Name) :
    (failType site what v name : Act α).Asks allowed :=
  fun _ => trivial

@[grind ←] lemma asks_callEvent (site : Site) (event : String) (fn : Val) (args : List Val) :
    (callEvent site event fn args).Asks allowed := by
  unfold callEvent
  grind

@[grind ←] lemma asks_eventOf (event : String) (a b : Val) : (eventOf event a b).Asks allowed :=
  fun _ => trivial

lemma asks_indexIn (site : Site) (key : Val) (fuel : Nat) (name : Name) (object : Val) :
    (indexIn site key fuel name object).Asks allowed := by
  induction fuel generalizing name object with
  | zero => exact asks_siteThrow _ _
  | succ fuel ih =>
    intro h
    unfold indexIn
    refine Outcome.asks_ite trivial ?_
    split
    · trivial
    · exact asks_failType _ _ _ _ h
    · exact Outcome.asks_ite (asks_callEvent _ _ _ _ h) (ih _ _ h)

@[grind ←] lemma asks_index (site : Site) (object key : Val) :
    (index site object key).Asks allowed :=
  asks_indexIn _ _ _ _ _

@[grind ←] lemma asks_rawSet (site : Site) (id : Nat) (key value : Val) :
    (rawSet site id key value).Asks allowed := by
  unfold rawSet
  grind

lemma asks_setIndexIn (site : Site) (key value : Val) (fuel : Nat) (name : Name) (object : Val) :
    (setIndexIn site key value fuel name object).Asks allowed := by
  induction fuel generalizing name object with
  | zero =>
    unfold setIndexIn
    exact asks_siteThrow _ _
  | succ fuel ih =>
    have hstep (fn object : Val) :
        (setIndexIn.step site key value fuel fn object).Asks allowed := by
      unfold setIndexIn.step
      grind
    intro h
    unfold setIndexIn
    dsimp only
    split
    · exact Outcome.asks_ite (asks_rawSet _ _ _ _ h) (hstep _ _ h)
    · exact Outcome.asks_ite (asks_failType _ _ _ _ h) (hstep _ _ h)

@[grind ←] lemma asks_setIndex (site : Site) (object key value : Val) :
    (setIndex site object key value).Asks allowed :=
  asks_setIndexIn _ _ _ _ _ _

@[grind ←] lemma asks_byEvent (site : Site) (op : BinaryOp) (a b : Val) (nameA nameB : Name) :
    (byEvent site op a b nameA nameB).Asks allowed := by
  unfold byEvent
  grind

@[grind ←] lemma asks_arithmetic (site : Site) (op : BinaryOp) (a b : Val) (nameA nameB : Name) :
    (arithmetic site op a b nameA nameB).Asks allowed := by
  unfold arithmetic
  grind

@[grind ←] lemma asks_negate (site : Site) (v : Val) (name : Name) :
    (negate site v name).Asks allowed := by
  unfold negate
  grind

@[grind ←] lemma asks_complement (site : Site) (v : Val) (name : Name) :
    (complement site v name).Asks allowed := by
  unfold complement
  grind

@[grind ←] lemma asks_equal (site : Site) (a b : Val) : (equal site a b).Asks allowed := by
  unfold equal
  grind

@[grind ←] lemma asks_compareByEvent (site : Site) (event : String) (a b : Val) :
    (compareByEvent site event a b).Asks allowed := by
  unfold compareByEvent
  grind

@[grind ←] lemma asks_lessThan (site : Site) (a b : Val) : (lessThan site a b).Asks allowed := by
  unfold lessThan
  grind

@[grind ←] lemma asks_lessEqual (site : Site) (a b : Val) : (lessEqual site a b).Asks allowed := by
  unfold lessEqual
  grind

@[grind ←] lemma asks_concat (site : Site) (a b : Val) (nameA nameB : Name) :
    (concat site a b nameA nameB).Asks allowed := by
  unfold concat
  grind

@[grind ←] lemma asks_length (site : Site) (v : Val) (name : Name) :
    (length site v name).Asks allowed := by
  unfold length
  cases v
  case str => exact asks_pure _
  all_goals
    intro h
    dsimp only
    split
    all_goals first | trivial | exact asks_failType _ _ _ _ h | exact asks_callEvent _ _ _ _ h

@[grind ←] lemma asks_toText (site : Site) (v : Val) : (toText site v).Asks allowed := by
  unfold toText
  grind

end Operation

/-! ## Arguments -/

namespace Arguments

variable (a : Arguments) (n : Nat)

@[grind ←] lemma asks_fail (wording : Bytes) : (a.fail n wording : Act α).Asks allowed := by
  unfold fail
  grind

@[grind ←] lemma asks_failType (expected : String) :
    (a.failType n expected : Act α).Asks allowed :=
  fun h => a.asks_fail n _ h

@[grind ←] lemma asks_any : (a.any n).Asks allowed := by
  unfold any
  grind

@[grind ←] lemma asks_int : (a.int n).Asks allowed := by
  unfold int
  grind

@[grind ←] lemma asks_optInt (default : Int64) : (a.optInt n default).Asks allowed := by
  unfold optInt
  grind

@[grind ←] lemma asks_number : (a.number n).Asks allowed := by
  unfold number
  grind

@[grind ←] lemma asks_float : (a.float n).Asks allowed := by
  unfold float
  grind

@[grind ←] lemma asks_str : (a.str n).Asks allowed := by
  unfold str
  grind

@[grind ←] lemma asks_optStr (default : Bytes) : (a.optStr n default).Asks allowed := by
  unfold optStr
  grind

@[grind ←] lemma asks_table : (a.table n).Asks allowed := by
  unfold table
  grind

@[grind ←] lemma asks_function : (a.function n).Asks allowed := by
  unfold function
  grind

@[grind ←] lemma asks_option (default : Option String) (words : List String) :
    (a.option n default words).Asks allowed := by
  unfold option
  grind

@[grind ←] lemma asks_converted (convert : Val → Except String α) :
    (a.converted n convert).Asks allowed := by
  unfold converted
  grind

@[grind ←] lemma asks_hostText : (a.hostText n).Asks allowed := a.asks_converted n _

end Arguments

@[grind ←] lemma asks_giveStr (s : Bytes) : (giveStr s).Asks allowed := asks_pure _

@[grind ←] lemma asks_giveInt (i : Int64) : (giveInt i).Asks allowed := asks_pure _

@[grind ←] lemma asks_giveNat (n : Nat) : (giveNat n).Asks allowed := asks_pure _

@[grind ←] lemma asks_giveBool (b : Bool) : (giveBool b).Asks allowed := asks_pure _

/-! ## Conversions -/

@[grind ←] lemma asks_reportOf (error : Val) : (reportOf error).Asks allowed := by
  unfold reportOf
  grind

@[grind ←] lemma asks_failReported (error : Val) : (failReported error : Act α).Asks allowed := by
  unfold failReported
  grind

@[grind ←] lemma asks_asHost {m : Act α} (h : m.Asks allowed) : m.asHost.Asks allowed :=
  fun heap => (h heap).onFail fun e heap => asks_failReported e heap

@[grind ←] lemma asks_globalField (name : String) : (globalField name).Asks allowed := by
  unfold globalField
  grind

@[grind ←] lemma asks_callFromHost (v : Val) (args : List Val) :
    (callFromHost v args).Asks allowed := by
  unfold callFromHost
  grind

@[grind ←] lemma asks_hostResult (values : List Val) : (hostResult values).Asks allowed := by
  unfold hostResult
  grind

@[grind ←] lemma asks_stringify (v : Val) : (stringify v).Asks allowed := by
  unfold stringify
  grind

section

variable {convert : Val → Act Value} (hconvert : ∀ v, (convert v).Asks allowed)

include hconvert

lemma asks_exportItems (values : List Val) : (exportItems convert values).Asks allowed := by
  induction values with
  | nil => exact asks_pure _
  | cons v rest ih =>
    unfold exportItems
    grind

lemma asks_exportEntries (pairs : List (Val × Val)) (done : List (String × Value)) :
    (exportEntries convert pairs done).Asks allowed := by
  induction pairs generalizing done with
  | nil => exact asks_pure _
  | cons pair rest ih =>
    unfold exportEntries
    grind

lemma asks_exportSequence (id count i : Nat) :
    (exportSequence id convert count i).Asks allowed := by
  induction count generalizing i with
  | zero => exact asks_pure _
  | succ count ih =>
    unfold exportSequence
    grind

end

lemma asks_exportWithin (room : Nat) (around : List Nat) (v : Val) :
    (exportWithin room around v).Asks allowed := by
  induction room generalizing around v with
  | zero =>
    unfold exportWithin
    grind
  | succ room ih =>
    unfold exportWithin
    grind [asks_exportSequence, asks_exportEntries]

@[grind ←] lemma asks_export (v : Val) : v.export.Asks allowed := asks_exportWithin _ _ _

@[grind ←] lemma asks_exportAll (values : List Val) : (exportAll values).Asks allowed :=
  asks_exportItems asks_export values

end BracketTemplate.Script
