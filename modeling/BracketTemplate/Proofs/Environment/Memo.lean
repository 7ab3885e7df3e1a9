import Mathlib
import BracketTemplate.Environment.Basic
import BracketTemplate.Proofs.Files.Changes
import BracketTemplate.Proofs.Value.Written

/-!
# What is remembered of calls

Functions are registered, called and registered anew, and environments are derived from one another,
in any order and any number of times: a `Desk` goes through such deeds (`Desk.run`).  Every result
that is remembered then has a history (`exists_called`).  It was given in a call of the function
that still bears the name, on arguments with that written form, and the name has not been registered
since.

So a call of a function that is a matter of its arguments only gives what the function gives, on
these arguments or on others with the same written form (`call_eq`).  These are not always the same
arguments.  A double that is not finite is written like `nil`, and a result that was remembered for
the one is given for the other (`call_confused`).
-/

namespace BracketTemplate

variable {σ : Type}

/-- An environment, and the state that its functions work on. -/
structure Desk (σ : Type) where
  env : Environment σ
  state : σ

/-- What is done with an environment. -/
inductive Deed (σ : Type) where
  | register (name : String) (body : FunctionBody σ) (memoize : Bool)
  | call (name : String) (args : List Value)
  /-- An environment is derived, and is the one that is worked with from then on. -/
  | derive

namespace Desk

/-- What a deed makes of an environment; a name that is refused registers nothing. -/
def step (desk : Desk σ) : Deed σ → Desk σ
  | .register name body memoize =>
    match desk.env.register name body memoize with
    | .ok env => { desk with env }
    | .error _ => desk
  | .call name args =>
    let after := (desk.env.call name args desk.state).2
    ⟨after.1, after.2⟩
  | .derive => { desk with env := desk.env.derive }

/-- What deeds make of an environment, one after the other. -/
def run (desk : Desk σ) (deeds : List (Deed σ)) : Desk σ := deeds.foldl step desk

/-- What calling a function gives. -/
def call (desk : Desk σ) (name : String) (args : List Value) : Except String Value :=
  (desk.env.call name args desk.state).1

/-- A new environment. -/
def new (escape : String → String) (state : σ) : Desk σ := ⟨.new escape, state⟩

variable {desk : Desk σ}

@[simp] lemma run_nil (desk : Desk σ) : desk.run [] = desk := rfl

lemma run_append (desk : Desk σ) (deeds others : List (Deed σ)) :
    desk.run (deeds ++ others) = (desk.run deeds).run others := List.foldl_append

lemma run_singleton (desk : Desk σ) (deed : Deed σ) : desk.run [deed] = desk.step deed := rfl

/-! ## What deeds change -/

/-- Registering puts a function under its name and leaves all others. -/
lemma lookup_putFunction (name other : String) (f : RegisteredFunction σ)
    (functions : List (String × RegisteredFunction σ)) :
    (Environment.putFunction name f functions).lookup other =
      if other = name then some f else functions.lookup other := by
  induction functions with
  | nil => rw [Environment.putFunction, lookup_cons_eq_ite]
  | cons entry rest ih =>
    obtain ⟨n, g⟩ := entry
    rw [Environment.putFunction]
    split
    · next hn =>
      subst hn
      rw [lookup_cons_eq_ite, lookup_cons_eq_ite]
      split <;> rfl
    · next hn =>
      rw [lookup_cons_eq_ite, lookup_cons_eq_ite, ih]
      by_cases hother : other = n
      · subst hother
        rw [if_pos rfl, if_neg hn, if_pos rfl]
      · rw [if_neg hother, if_neg hother]

/-- A name that is refused registers nothing. -/
lemma step_register_refused (desk : Desk σ) {name : String} {e : TemplateError}
    (hcheck : checkBindingName name = .error e) (body : FunctionBody σ) (memoize : Bool) :
    desk.step (.register name body memoize) = desk := by
  simp [step, Environment.register, hcheck, bind, Except.bind]

/-- A function is put under its name, and what is remembered under the name is dropped. -/
lemma step_register_valid (desk : Desk σ) {name : String} (hcheck : checkBindingName name = .ok ())
    (body : FunctionBody σ) (memoize : Bool) :
    desk.step (.register name body memoize) =
      { desk with env := { desk.env with
          memo := desk.env.memo.filter fun m => m.1.1 != name
          functions := Environment.putFunction name ⟨body, memoize⟩ desk.env.functions } } := by
  simp [step, Environment.register, hcheck, bind, Except.bind, pure, Except.pure]

/-- Registering a function drops what is remembered under its name, and changes nothing else that is
remembered or registered. -/
lemma step_register (desk : Desk σ) (name : String) (body : FunctionBody σ) (memoize : Bool)
    {other key : String} {value : Value}
    (h : ((other, key), value) ∈ (desk.step (.register name body memoize)).env.memo) :
    ((other, key), value) ∈ desk.env.memo ∧
      (desk.step (.register name body memoize)).env.functions.lookup other =
        desk.env.functions.lookup other := by
  rcases hcheck : checkBindingName name with e | valid
  · rw [step_register_refused desk hcheck] at h ⊢
    exact ⟨h, rfl⟩
  · rw [step_register_valid desk hcheck] at h ⊢
    obtain ⟨hmem, hne⟩ := List.mem_filter.1 h
    have hother : other ≠ name := by simpa using hne
    exact ⟨hmem, (lookup_putFunction name other _ _).trans (if_neg hother)⟩

/-- **What a call gives and remembers**, in an environment with the function. -/
lemma call_memoized {env : Environment σ} {name : String} {body : FunctionBody σ}
    (h : env.functions.lookup name = some ⟨body, true⟩) (args : List Value) (state : σ) :
    (∃ value, ((name, Environment.writtenArguments args), value) ∈ env.memo ∧
      env.call name args state = (.ok value, env, state)) ∨
    (∃ value after, body args state = (.ok value, after) ∧ env.call name args state = (.ok value,
      { env with memo := env.memo ++ [((name, Environment.writtenArguments args), value)] },
        after)) ∨
    ∃ e after, body args state = (.error e, after) ∧
      env.call name args state = (.error e, env, after) := by
  unfold Environment.call
  rw [h]
  rcases hmemo : env.memo.lookup (name, Environment.writtenArguments args) with _ | value
  · rcases hbody : body args state with ⟨e | value, after⟩
    · exact .inr (.inr ⟨e, after, rfl, by simp [hmemo, hbody]⟩)
    · exact .inr (.inl ⟨value, after, rfl, by simp [hmemo, hbody]⟩)
  · obtain ⟨before, behind, hsplit, -⟩ := List.lookup_eq_some_iff.1 hmemo
    exact .inl ⟨value, by simp [hsplit], by simp [hmemo]⟩

/-- Calling a function remembers its result, if that is asked for, or nothing. -/
lemma step_call (desk : Desk σ) (name : String) (args : List Value) :
    (desk.step (.call name args)).env.functions = desk.env.functions ∧
      ((desk.step (.call name args)).env.memo = desk.env.memo ∨
        ∃ body value, desk.env.functions.lookup name = some ⟨body, true⟩ ∧
          (body args desk.state).1 = .ok value ∧
          (desk.step (.call name args)).env.memo =
            desk.env.memo ++ [((name, Environment.writtenArguments args), value)]) := by
  show (desk.env.call name args desk.state).2.1.functions = _ ∧
    ((desk.env.call name args desk.state).2.1.memo = _ ∨ ∃ body value, _ ∧ _ ∧
      (desk.env.call name args desk.state).2.1.memo = _)
  rcases hlookup : desk.env.functions.lookup name with _ | ⟨body, memoize⟩
  · simp [Environment.call, hlookup]
  cases memoize with
  | false => simp [Environment.call, hlookup]
  | true =>
    obtain ⟨value, -, hcall⟩ | ⟨value, after, hbody, hcall⟩ | ⟨e, after, -, hcall⟩ :=
      call_memoized hlookup args desk.state
    · rw [hcall]
      exact ⟨rfl, .inl rfl⟩
    · rw [hcall]
      exact ⟨rfl, .inr ⟨body, value, rfl, by rw [hbody], rfl⟩⟩
    · rw [hcall]
      exact ⟨rfl, .inl rfl⟩

/-! ## The history of a result -/

/-- **Where a remembered result comes from.**  It was given in a call of the function that bears the
name now, on arguments with that written form. -/
theorem exists_called (escape : String → String) (state : σ) {deeds : List (Deed σ)}
    {name key : String} {value : Value}
    (h : ((name, key), value) ∈ ((new escape state).run deeds).env.memo) :
    ∃ before given after body, deeds = before ++ .call name given :: after ∧
      Environment.writtenArguments given = key ∧
      ((new escape state).run deeds).env.functions.lookup name = some ⟨body, true⟩ ∧
      (body given ((new escape state).run before).state).1 = .ok value := by
  induction deeds using List.reverseRecOn with
  | nil => cases h
  | append_singleton deeds deed ih =>
    rw [run_append, run_singleton] at h ⊢
    -- what was remembered before the deed, under a function that is still there, has its history
    have hbefore : ((name, key), value) ∈ ((new escape state).run deeds).env.memo →
        (((new escape state).run deeds).step deed).env.functions.lookup name =
          ((new escape state).run deeds).env.functions.lookup name →
        ∃ before given after body, deeds ++ [deed] = before ++ .call name given :: after ∧
          Environment.writtenArguments given = key ∧
          (((new escape state).run deeds).step deed).env.functions.lookup name =
            some ⟨body, true⟩ ∧
          (body given ((new escape state).run before).state).1 = .ok value := by
      intro hmem hlookup
      obtain ⟨before, given, after, body, hdeeds, hkey, hbody, hvalue⟩ := ih hmem
      exact ⟨before, given, after ++ [deed], body, by rw [hdeeds]; simp, hkey,
        hlookup.trans hbody, hvalue⟩
    cases deed with
    | register other body memoize =>
      obtain ⟨hmem, hlookup⟩ := step_register _ other body memoize h
      exact hbefore hmem hlookup
    | call other args =>
      obtain ⟨hfunctions, hmemo | ⟨body, result, hlookup, hresult, hmemo⟩⟩ :=
        step_call ((new escape state).run deeds) other args
      · rw [hmemo] at h
        exact hbefore h (by rw [hfunctions])
      · rw [hmemo, List.mem_append, List.mem_singleton] at h
        rcases h with h | h
        · exact hbefore h (by rw [hfunctions])
        · obtain ⟨⟨rfl, rfl⟩, rfl⟩ : (name = other ∧ key = _) ∧ value = result := by simpa using h
          exact ⟨deeds, args, [], body, rfl, rfl, by rw [hfunctions, hlookup], hresult⟩
    | derive => exact hbefore h rfl

/-! ## Calling what remembers -/

/-- Written forms are the same when JSON keeps the same of the arguments. -/
lemma writtenArguments_inj {args given : List Value} :
    Environment.writtenArguments args = Environment.writtenArguments given ↔
      args.map Value.legible = given.map Value.legible := by
  rw [Environment.writtenArguments, Environment.writtenArguments, Value.toJson_inj, Value.legible,
    Value.legible, Value.legibleItems_eq, Value.legibleItems_eq]
  simp

/-- **A call gives what the function gives on arguments with the same written form**, namely these
arguments or those of a call before.  When there is no double among all of them that JSON has no
word for, it gives what the function gives on these arguments. -/
theorem call_eq (escape : String → String) (state : σ) (deeds : List (Deed σ)) {name : String}
    {body : FunctionBody σ} {f : List Value → Except String Value}
    (hlookup : ((new escape state).run deeds).env.functions.lookup name = some ⟨body, true⟩)
    (hpure : ∀ args state, (body args state).1 = f args) (args : List Value) :
    (∃ given, (given = args ∨ .call name given ∈ deeds) ∧
      given.map Value.legible = args.map Value.legible ∧
      ((new escape state).run deeds).call name args = f given) ∧
    (args.map Value.legible = args →
      (∀ given, .call name given ∈ deeds → given.map Value.legible = given) →
      ((new escape state).run deeds).call name args = f args) := by
  have hcall : ∃ given, (given = args ∨ .call name given ∈ deeds) ∧
      given.map Value.legible = args.map Value.legible ∧
      ((new escape state).run deeds).call name args = f given := by
    obtain ⟨value, hmem, hcall⟩ | ⟨value, after, hbody, hcall⟩ | ⟨e, after, hbody, hcall⟩ :=
      call_memoized hlookup args ((new escape state).run deeds).state
    · -- a remembered result has been given by this body
      obtain ⟨before, given, after, body', hdeeds, hkey, hbody, hgiven⟩ :=
        exists_called escape state hmem
      obtain rfl : body = body' := by
        rw [hlookup] at hbody
        cases hbody
        rfl
      refine ⟨given, .inr (by rw [hdeeds]; simp), writtenArguments_inj.1 hkey, ?_⟩
      rw [call, hcall, ← hgiven, hpure]
    · exact ⟨args, .inl rfl, rfl, by rw [call, hcall, ← hpure args, hbody]⟩
    · exact ⟨args, .inl rfl, rfl, by rw [call, hcall, ← hpure args, hbody]⟩
  refine ⟨hcall, fun hargs hcalls => ?_⟩
  obtain ⟨given, horigin, hlegible, hresult⟩ := hcall
  have hgiven : given = args := by
    rcases horigin with rfl | hmem
    · rfl
    · rw [← hcalls given hmem, hlegible, hargs]
  rw [hresult, hgiven]

/-- The first of some arguments. -/
def firstOf (args : List Value) : Except String Value := .ok (args.headD .nil)

/-- An environment in which a function that gives its first argument remembers what it gave for the
integer one. -/
def remembering : Desk Unit :=
  (new id ()).run [.register "first" (fun args state => (firstOf args, state)) true,
    .call "first" [.int 1], .derive]

/-- Calls with other arguments are answered for those. -/
theorem call_eq_remembering :
    remembering.env.functions.lookup "first" =
        some ⟨fun args state => (firstOf args, state), true⟩ ∧
      remembering.call "first" [.str "one"] = firstOf [.str "one"] :=
  ⟨rfl, (call_eq id () [.register "first" (fun args state => (firstOf args, state)) true,
    .call "first" [.int 1], .derive] (f := firstOf) rfl (fun _ _ => rfl) [.str "one"]).2 rfl
    (fun given hgiven => by
      obtain rfl : given = [.int 1] := by simpa using hgiven
      rfl)⟩

/-- An infinite double is answered as `nil` was before. -/
theorem call_confused :
    ((new id ()).run [.register "first" (fun args state => (firstOf args, state)) true,
        .call "first" [.nil]]).call "first" [.float (1.0 / 0.0)] = .ok .nil ∧
      firstOf [.float (1.0 / 0.0)] ≠ .ok .nil :=
  ⟨rfl, by simp [firstOf]⟩

end Desk

end BracketTemplate
