import BracketTemplate.Environment.Name
import BracketTemplate.Evaluation.Template
import BracketTemplate.Value.Json

/-!
# Environments

A template is evaluated in an environment: the output so far, the function that escapes text, the
bindings, the registered functions with the results they have been asked to remember, and the
directories that includes are looked for in.

Bindings and functions keep the order in which their names first came up. The remembered results
belong to a function and the written form of its arguments; registering a function under a name
drops what is remembered for that name.

A function may have a state to work on, which lives outside of the environment; `σ` is its type.
-/

namespace BracketTemplate

/-- What a registered function does: a value or the wording of an error, and the state after it. -/
abbrev FunctionBody (σ : Type) := List Value → σ → Except String Value × σ

/-- A registered function. -/
structure RegisteredFunction (σ : Type) where
  body : FunctionBody σ
  /-- Whether results are remembered by the written form of the arguments. -/
  memoize : Bool

/-- The template that is being evaluated. -/
structure Running where
  identity : Nat
  evaluator : Evaluator
  deriving DecidableEq, Repr, Inhabited

/-- What a template is evaluated in. -/
structure Environment (σ : Type) where
  output : String
  escape : String → String
  bindings : List (String × Value)
  functions : List (String × RegisteredFunction σ)
  /-- Remembered results, by the name of the function and the written form of its arguments. -/
  memo : List ((String × String) × Value)
  rootdir : Option Path
  /-- The current directory, if it has been set. -/
  workdirSet : Option Path
  /-- Whether pages are included through the cache. -/
  hasCache : Bool
  running : Option Running
  /-- The files that are being included, the outermost first. -/
  including : List Path

namespace Environment

variable {σ : Type}

/-- An environment with nothing in it. -/
def new (escape : String → String) : Environment σ :=
  { output := "", escape, bindings := [], functions := [], memo := [], rootdir := none
    workdirSet := none, hasCache := false, running := none, including := [] }

instance : Inhabited (Environment σ) := ⟨new id⟩

/-! ## Output -/

/-- Writes a text as it is. -/
def writeRaw (env : Environment σ) (text : String) : Environment σ :=
  { env with output := env.output ++ text }

/-- Writes a text escaped. -/
def writeEscaped (env : Environment σ) (text : String) : Environment σ :=
  env.writeRaw (env.escape text)

/-- Writes a text, escaped unless `raw`. -/
def write (env : Environment σ) (raw : Bool) (text : String) : Environment σ :=
  if raw then env.writeRaw text else env.writeEscaped text

/-- Drops all output but the first so many bytes. -/
def truncateOutput (env : Environment σ) (size : Nat) : Environment σ :=
  { env with output := String.Pos.Raw.extract env.output 0 ⟨size⟩ }

/-- The output from a byte on. -/
def outputFrom (env : Environment σ) (start : Nat) : String :=
  String.Pos.Raw.extract env.output ⟨start⟩ env.output.rawEndPos

/-- The output, and the environment without it. -/
def takeOutput (env : Environment σ) : String × Environment σ :=
  (env.output, { env with output := "" })

/-! ## Bindings -/

/-- The value of a binding. -/
def get? (env : Environment σ) (spelling : String) : Option Value :=
  Value.lookup (bindingName spelling) env.bindings

/-- Makes a binding. -/
def set (env : Environment σ) (spelling : String) (value : Value) :
    Except TemplateError (Environment σ) := do
  let name := bindingName spelling
  checkBindingName name
  return { env with bindings := Value.insert name value env.bindings }

/-- Makes bindings one after another, until one is refused; those before it stay. -/
def update (env : Environment σ) : List (String × Value) → Except TemplateError Unit × Environment σ
  | [] => (.ok (), env)
  | (name, value) :: rest =>
    match env.set name value with
    | .ok env => env.update rest
    | .error e => (.error e, env)

/-! ## Functions -/

/-- Puts a function under a name: in place when the name is there, at the end otherwise. -/
def putFunction (name : String) (f : RegisteredFunction σ) :
    List (String × RegisteredFunction σ) → List (String × RegisteredFunction σ)
  | [] => [(name, f)]
  | (n, g) :: rest => if n = name then (n, f) :: rest else (n, g) :: putFunction name f rest

/-- Registers a function. -/
def register (env : Environment σ) (name : String) (body : FunctionBody σ) (memoize : Bool) :
    Except TemplateError (Environment σ) := do
  checkBindingName name
  return { env with
    memo := env.memo.filter fun m => m.1.1 != name
    functions := putFunction name ⟨body, memoize⟩ env.functions }

/-- The names of the registered functions. -/
def functionNames (env : Environment σ) : List String := env.functions.map (·.1)

/-- The written form of arguments. -/
def writtenArguments (args : List Value) : String := (Value.list args).toJson

/-- Calls a registered function. -/
def call (env : Environment σ) (name : String) (args : List Value) (state : σ) :
    Except String Value × Environment σ × σ :=
  match env.functions.lookup name with
  | none => (.error s!"未注册的函数 {name}", env, state)
  | some f =>
    if !f.memoize then
      let (result, state) := f.body args state
      (result, env, state)
    else
      let key := (name, writtenArguments args)
      match env.memo.lookup key with
      | some value => (.ok value, env, state)
      | none =>
        match f.body args state with
        | (.ok value, state) => (.ok value, { env with memo := env.memo ++ [(key, value)] }, state)
        | (.error e, state) => (.error e, env, state)

/-! ## Directories -/

/-- The current directory: the root unless another one has been set. -/
def workdir (env : Environment σ) : Option Path := env.workdirSet.or env.rootdir

/-! ## Templates -/

/-- Marks a template as the one being evaluated. -/
def enter (env : Environment σ) (t : Template) : Environment σ :=
  { env with running := some ⟨t.identity, t.evaluator⟩ }

/-- An environment for an included page: it starts with everything but the output, and what happens
in it stays there. -/
def derive (env : Environment σ) : Environment σ := { env with output := "", running := none }

end Environment

end BracketTemplate
