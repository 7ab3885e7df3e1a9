import BracketTemplate.Script.Library.Argument

/-!
# Functions on coroutines

A coroutine is a call that can be put aside and taken up again. What happens to calls is the matter
of the machine that runs them; the functions here ask for it and give the answers.
-/

namespace BracketTemplate.Script.Coroutines

/-- The coroutine in front of the other arguments. -/
def coroutine (a : Arguments) : Act Nat :=
  match a.get 1 with
  | .thread id => pure id
  | _ => a.failType 1 "coroutine"

/-- Has something done that cannot go wrong. -/
def sure (c : Control) : Act (List Val) := do
  match ← Act.control c with
  | .ok values => return values
  | .error e => .throw e

/-- Makes a coroutine of a function. -/
def create (a : Arguments) : Act (List Val) := do sure (.create (← a.function 1))

/-- Resumes a coroutine that stands behind a function. An error that is a text gets the place of the
call in front. -/
def resumeWrapped (site : Site) (thread : Nat) (args : List Val) : Act (List Val) := do
  match ← Act.control (.resume thread args) with
  | .ok values => return values
  | .error (.str s) => site.throw s
  | .error e => .throw e

/-- Closes a coroutine that does not run. -/
def close (a : Arguments) : Act (List Val) := do
  let id ← coroutine a
  match ← sure (.status id) with
  | .str status :: _ =>
    if status == utf8 "suspended" || status == utf8 "dead" then
      match ← Act.control (.close id) with
      | .ok _ => giveBool true
      | .error e => return [.bool false, e]
    else a.site.throw (utf8 "cannot close a " ++ status ++ utf8 " coroutine")
  | _ => return []

/-- Runs a function on coroutines. -/
def run (f : CoroutineFunction) (a : Arguments) : Act (List Val) :=
  match f with
  | .close => close a
  | .create => create a
  | .isyieldable => sure .isYieldable
  | .resume => do
    let id ← coroutine a
    match ← Act.control (.resume id (a.values.drop 1)) with
    | .ok values => return .bool true :: values
    | .error e => return [.bool false, e]
  | .running => sure .running
  | .status => do sure (.status (← coroutine a))
  | .wrap => do
    match ← create a with
    | .thread id :: _ => .update fun h =>
      let (native, h) := h.newNative (.wrapped id)
      ([.native native], h)
    | values => return values
  | .yield => sure (.yield a.values)

/-- The functions under their names. -/
def names : List (String × CoroutineFunction) :=
  [("close", .close), ("create", .create), ("isyieldable", .isyieldable), ("resume", .resume),
    ("running", .running), ("status", .status), ("wrap", .wrap), ("yield", .yield)]

end BracketTemplate.Script.Coroutines
