import BracketTemplate.Script.Evaluation
import BracketTemplate.Script.Library

/-!
# The machine

Acts say what they want; the machine gives it to them. Its state is the outcome it has come to and a
stack of frames, each of which waits for something: the results of a call, the signal that code is
left with, the end of a guarded call. One step looks at the outcome and

* takes the topmost frame off when the outcome is done or has failed, and goes on with what that
  frame makes of it;
* puts a frame on the stack when the outcome wants a call or wants to enter code;
* moves to another stack when it wants to resume a coroutine or to yield;
* stops when it asks the host, which answers by the next state.

A call that is the last thing a function of the script does takes the place of the function. Code
that goes on as other code keeps its frame, so a loop needs one frame however long it runs.

Calls can be nested to a certain depth, and less deeply when they are made by builtin functions.
-/

namespace BracketTemplate.Script

/-- How the machine goes on with something. -/
abbrev Next (α : Type) := α → Heap → Outcome Signal

/-- What waits for something. -/
inductive Frame where
  /-- The caller of a function. -/
  | call (site : Site) (next : Next (List Val))
  /-- What entered code. -/
  | code (next : Next Signal)
  /-- The caller of a guarded function, and the function that errors go through. -/
  | guard (handler : Option Val) (next : Next (Except Val (List Val)))
  /-- The caller of a guarded function whose handler runs. -/
  | handling (next : Next (Except Val (List Val)))
  /-- A value that is to be closed when the code above is left. -/
  | closing (value : Val)
  /-- What resumed a coroutine. -/
  | resumed (next : Next (Except Val (List Val)))

namespace Frame

/-- Whether the frame stands for a call. -/
def isCall : Frame → Bool
  | call .. | guard .. | handling .. => true
  | _ => false

/-- Whether the frame stands for a call that does not come from the code of a function. -/
def isNative : Frame → Bool
  | call site _ =>
    site.position.isNone || match site.name with
      | some (kind, _) => kind == "metamethod" || kind == "for iterator"
      | none => false
  | guard .. | handling .. => true
  | _ => false

/-- Whether a coroutine can yield above the frame: it cannot above a call that a builtin function
makes. -/
def isYieldable : Frame → Bool
  | call site _ => site.position.isSome
  | guard .. | handling .. => false
  | _ => true

/-- The place of a call. -/
def place : Frame → Bytes
  | call site _ => site.text
  | _ => []

end Frame

/-- What a coroutine does. -/
inductive ThreadStatus where
  | suspended
  | running
  /-- It has resumed another coroutine. -/
  | normal
  | dead
  deriving DecidableEq, Repr, Inhabited

/-- How a status is called. -/
def ThreadStatus.text : ThreadStatus → String
  | suspended => "suspended"
  | running => "running"
  | normal => "normal"
  | dead => "dead"

/-- How a coroutine goes on with what it is given. -/
inductive Resumption where
  /-- It calls the function that it was made of. -/
  | start (fn : Val)
  /-- It goes on from where it was put aside. -/
  | goOn (next : Next (List Val))

/-- A coroutine that does not run at the moment. -/
structure Thread where
  status : ThreadStatus
  /-- How it goes on when it is resumed. -/
  resumption : Resumption
  frames : List Frame
  calls : Nat
  native : Nat
  /-- The coroutine that resumed it. -/
  parent : Nat
  /-- The error that ended it. -/
  error : Option Val

instance : Inhabited Thread :=
  ⟨⟨.dead, .goOn fun _ h => .done .normal h, [], 0, 0, 0, none⟩⟩

/-- The state of the machine. -/
structure Machine where
  focus : Outcome Signal
  frames : List Frame
  /-- The number of calls on the stack. -/
  calls : Nat
  /-- The number of calls that do not come from the code of a function, below on any stack. -/
  native : Nat
  /-- The coroutine that runs; the script itself is the first. -/
  current : Nat
  threads : Array Thread

namespace Machine

/-- How many calls can be on a stack. -/
def maxCalls : Nat := 199990

/-- How many calls that do not come from the code of a function can be nested. -/
def maxNative : Nat := 200

/-! ## Frames -/

/-- Goes on with another outcome. -/
def goOn (m : Machine) (focus : Outcome Signal) : Machine := { m with focus }

/-- Puts a frame on the stack. -/
def push (m : Machine) (f : Frame) : Machine :=
  { m with
    frames := f :: m.frames
    calls := if f.isCall then m.calls + 1 else m.calls
    native := if f.isNative then m.native + 1 else m.native }

/-- Takes the topmost frame off the stack. -/
def pop (m : Machine) (f : Frame) (rest : List Frame) : Machine :=
  { m with
    frames := rest
    calls := if f.isCall then m.calls - 1 else m.calls
    native := if f.isNative then m.native - 1 else m.native }

/-! ## Calls -/

/-- How many values stand in for each other at most when one of them is called. -/
def maxCallChain : Nat := 200

/-- What a call comes to. A value that is no function is called by the function of its metatable. -/
def start (site : Site) : Nat → Val → Next (List Val)
  | 0, _, _, h => site.throw (utf8 "C stack overflow") h
  | fuel + 1, fn, args, h =>
    match fn with
    | .closure id => (h.closure id).run args h
    | .builtin f => (f.run site args h).bind fun values h => .done (.return values) h
    | .native id => ((h.native id).run id site args h).bind fun values h => .done (.return values) h
    | _ =>
      match h.metafield fn "__call" with
      | .nil => Operation.failType site "call" fn site.name h
      | handler => start site fuel handler (fn :: args) h

/-- What a call comes to. -/
def begin (fn : Val) (args : List Val) (site : Site) (h : Heap) : Outcome Signal :=
  start site maxCallChain fn args h

/-- Calls a function for a frame. -/
def call (m : Machine) (frame : Frame) (fn : Val) (args : List Val) (site : Site) (h : Heap) :
    Machine :=
  if maxCalls ≤ m.calls then m.goOn (site.throw (utf8 "stack overflow") h)
  else if frame.isNative && maxNative ≤ m.native + 1 then
    m.goOn (site.throw (utf8 "C stack overflow") h)
  else (m.push frame).goOn (begin fn args site h)

/-- Lets a call take the place of the function that makes it. A builtin function gets a frame of its
own. -/
def tailCall (m : Machine) (fn : Val) (args : List Val) (site : Site) (h : Heap) : Machine :=
  match fn with
  | .closure _ => m.goOn (begin fn args site h)
  | _ => m.call (.call site fun values h => .done (.return values) h) fn args site h

/-- The values that a function is left with. -/
def values : Signal → List Val
  | .return values => values
  | _ => []

/-! ## Closing -/

/-- Closes a value, because of an error or without one, and goes on. -/
def close (value error : Val) (h : Heap) (next : Heap → Outcome Signal) : Outcome Signal :=
  if !value.truthy then next h
  else
    match h.metafield value "__close" with
    | .nil => next h
    | fn =>
      .call fn [value, error] { name := some ("metamethod", utf8 "close") } h fun _ h => next h

/-- Closes values one after another; the last error counts. -/
def closeAll (next : Next (Except Val (List Val))) : List Val → Option Val → Heap → Outcome Signal
  | [], none, h => next (.ok []) h
  | [], some e, h => next (.error e) h
  | v :: rest, error, h =>
    match h.metafield v "__close" with
    | .nil => closeAll next rest error h
    | fn => .guard fn [v, error.getD .nil] none h fun result h =>
      match result with
      | .ok _ => closeAll next rest error h
      | .error e => closeAll next rest (some e) h

/-! ## Coroutines -/

/-- A coroutine. -/
def thread (m : Machine) (id : Nat) : Thread := m.threads[id]?.getD default

/-- Changes a coroutine. -/
def setThread (m : Machine) (id : Nat) (t : Thread) : Machine :=
  { m with threads := m.threads.setIfInBounds id t }

/-- The status of a coroutine. -/
def statusOf (m : Machine) (id : Nat) : ThreadStatus :=
  if id == m.current then .running else (m.thread id).status

/-- Whether the running coroutine can yield. The frame at its bottom does not count. -/
def isYieldable (m : Machine) : Bool := m.current != 0 && m.frames.dropLast.all Frame.isYieldable

/-- Puts the running coroutine aside, with what it waits for. -/
def putAside (m : Machine) (status : ThreadStatus) (frames : List Frame) (next : Next (List Val)) :
    Machine :=
  let t := m.thread m.current
  m.setThread m.current
    { t with status, resumption := .goOn next, frames, calls := m.calls, native := m.native }

/-- Goes back to the coroutine that resumed the running one. -/
def giveBack (m : Machine) (result : Except Val (List Val)) (h : Heap) : Machine :=
  let parent := (m.thread m.current).parent
  let t := m.thread parent
  let m := { m with current := parent, calls := t.calls, native := t.native }
  match t.frames with
  | .resumed next :: rest => { m with frames := rest, focus := next result h }
  | frames => { m with frames }

/-- Ends the running coroutine. -/
def endThread (m : Machine) (result : Except Val (List Val)) (h : Heap) : Machine :=
  let error := match result with
    | .ok _ => none
    | .error e => some e
  let t := m.thread m.current
  (m.setThread m.current { t with status := .dead, frames := [], error }).giveBack result h

/-- What a coroutine comes to when it is resumed. -/
def enter (args : List Val) (h : Heap) : Resumption → Outcome Signal
  | .start fn => begin fn args {} h
  | .goOn next => next args h

/-- Resumes a coroutine. -/
def resume (m : Machine) (id : Nat) (args : List Val) (h : Heap)
    (next : Next (Except Val (List Val))) : Machine :=
  let refuse (wording : String) : Machine := m.goOn (next (.error (.ofString wording)) h)
  match m.statusOf id with
  | .suspended =>
    if maxNative ≤ m.native + 1 then refuse "C stack overflow"
    else
      let t := m.thread id
      let m := m.putAside .normal (.resumed next :: m.frames) fun _ h => .done .normal h
      let m := m.setThread id { t with status := .running, parent := m.current }
      { m with
        current := id
        frames := t.frames
        calls := t.calls
        native := m.native + 1
        focus := enter args h t.resumption }
  | .dead => refuse "cannot resume dead coroutine"
  | _ => refuse "cannot resume non-suspended coroutine"

/-- Puts the running coroutine aside and gives values to the one that resumed it. -/
def yield (m : Machine) (values : List Val) (h : Heap) (next : Next (Except Val (List Val))) :
    Machine :=
  let refuse (wording : String) : Machine := m.goOn (next (.error (.ofString wording)) h)
  if m.current == 0 then refuse "attempt to yield from outside a coroutine"
  else if !m.isYieldable then refuse "attempt to yield across a C-call boundary"
  else
    (m.putAside .suspended m.frames fun args h => next (.ok args) h).giveBack (.ok values) h

/-- Closes a coroutine, with the values that are to be closed in it. -/
def closeThread (m : Machine) (id : Nat) (h : Heap) (next : Next (Except Val (List Val))) :
    Machine :=
  let t := m.thread id
  let waiting := t.frames.filterMap fun f =>
    match f with
    | .closing v => if v.truthy then some v else none
    | _ => none
  let m := m.setThread id { t with status := .dead, frames := [], error := none }
  m.goOn (closeAll next waiting t.error h)

/-- A coroutine that calls a function. -/
def newThread (fn : Val) : Thread :=
  { (default : Thread) with
    status := .suspended
    resumption := .start fn
    frames := [.call {} fun values h => .done (.return values) h]
    calls := 1 }

/-- Does something to coroutines or the stack of calls. -/
def control (m : Machine) (c : Control) (h : Heap) (next : Next (Except Val (List Val))) :
    Machine :=
  let give (values : List Val) : Machine := m.goOn (next (.ok values) h)
  match c with
  | .place level =>
    match (m.frames.filter Frame.isCall)[level - 1]? with
    | some f => give [.str f.place]
    | none => give []
  | .create fn =>
    { m with threads := m.threads.push (newThread fn) }.goOn (next (.ok [.thread m.threads.size]) h)
  | .resume id args => m.resume id args h next
  | .yield values => m.yield values h next
  | .status id => give [.ofString (m.statusOf id).text]
  | .running => give [.thread m.current, .bool (m.current == 0)]
  | .isYieldable => give [.bool m.isYieldable]
  | .close id => m.closeThread id h next

/-! ## Steps -/

/-- What comes after a state. -/
inductive Step where
  | next (m : Machine)
  | ask (request : Request) (next : request.Answer → Machine)
  | done (result : Except Val (List Val)) (heap : Heap)

/-- Takes the topmost frame off for an outcome that is done. -/
def leave (m : Machine) (s : Signal) (h : Heap) (f : Frame) (rest : List Frame) : Machine :=
  let below := m.pop f rest
  match f, s with
  | .call .., .tailCall fn args site => m.tailCall fn args site h
  | .call _ next, s => below.goOn (next (values s) h)
  | .code _, .again code => m.goOn (code.perform h)
  | .code next, s => below.goOn (next s h)
  | .guard .., .tailCall fn args site => m.tailCall fn args site h
  | .guard _ next, s => below.goOn (next (.ok (values s)) h)
  | .handling .., .tailCall fn args site => m.tailCall fn args site h
  | .handling next, s => below.goOn (next (.error ((values s).headD .nil)) h)
  | .closing v, s => below.goOn (close v .nil h fun h => .done s h)
  | .resumed next, s => below.goOn (next (.ok (values s)) h)

/-- Takes the topmost frame off for an outcome that has failed. -/
def unwind (m : Machine) (error : Val) (h : Heap) (f : Frame) (rest : List Frame) : Machine :=
  let below := m.pop f rest
  match f with
  | .guard none next => below.goOn (next (.error error) h)
  | .guard (some handler) next => (below.push (.handling next)).goOn (begin handler [error] {} h)
  | .handling next => below.goOn (next (.error (.ofString "error in error handling")) h)
  | .closing v => below.goOn (close v error h fun h => .fail error h)
  | _ => below

/-- One step of the machine. -/
def step (m : Machine) : Step :=
  match m.focus with
  | .done s h =>
    match m.frames with
    | f :: rest => .next (m.leave s h f rest)
    | [] =>
      if m.current == 0 then .done (.ok (values s)) h else .next (m.endThread (.ok (values s)) h)
  | .fail e h =>
    match m.frames with
    | f :: rest => .next (m.unwind e h f rest)
    | [] => if m.current == 0 then .done (.error e) h else .next (m.endThread (.error e) h)
  | .call fn args site h next => .next (m.call (.call site next) fn args site h)
  | .enter code h next =>
    let m := m.push (.code next)
    match code with
    | .closing value _ => .next ((m.push (.closing value)).goOn (code.perform h))
    | _ => .next (m.goOn (code.perform h))
  | .guard fn args handler h next => .next (m.call (.guard handler next) fn args {} h)
  | .control c h next => .next (m.control c h next)
  | .ask request h next => .ask request fun answer => m.goOn (next answer h)

/-- Where a run stops. -/
inductive Pause where
  | ask (request : Request) (next : request.Answer → Machine)
  | done (result : Except Val (List Val)) (heap : Heap)
  /-- The number of steps did not suffice. -/
  | exhausted

/-- Runs the machine for a number of steps at most, until it asks the host or is done. -/
def run : Nat → Machine → Pause
  | 0, _ => .exhausted
  | fuel + 1, m =>
    match m.step with
    | .next m => run fuel m
    | .ask request next => .ask request next
    | .done result heap => .done result heap

/-- The machine that performs an act. -/
def ofAct (a : Act (List Val)) (h : Heap) : Machine :=
  { focus := (a h).bind fun values h => .done (.return values) h
    frames := []
    calls := 0
    native := 0
    current := 0
    threads := #[{ (default : Thread) with status := .running }] }

end Machine

end BracketTemplate.Script
