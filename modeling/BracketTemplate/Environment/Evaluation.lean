import BracketTemplate.Environment.Basic
import BracketTemplate.Environment.World
import BracketTemplate.Script.Startup

/-!
# Evaluating templates

A template is evaluated by running the script of its program. The script computes on its own heap;
all it does to the environment and the world it does by requests, which `answer` answers one by one.
So a run is a sequence of requests and answers, and the output grows by what the requests write.

A page that is included at run time is evaluated in a derived environment, and only its output comes
back. Whatever goes wrong with it, the including page goes on with a mark in its place. A file that
is being included is not included again, and the nesting of includes is bounded.
-/

namespace BracketTemplate

variable {σ : Type}

/-- What an evaluation works on. -/
structure Scene (σ : Type) where
  env : Environment σ
  world : World σ

namespace Scene

/-- Changes the environment. -/
def onEnv (s : Scene σ) (f : Environment σ → Environment σ) : Scene σ := { s with env := f s.env }

/-! ## Requests -/

/-- Carries out an instruction of a program; false when there is none of the kind. -/
def perform (s : Scene σ) (program : Program) (kind : Script.InstructionKind) (index : Nat) :
    Bool × Scene σ :=
  match kind, program[index]? with
  | .text, some (.emit text) => (true, s.onEnv (·.writeRaw text))
  | .rootdir, some (.rootdir dir) => (true, s.onEnv fun env => { env with rootdir := some dir })
  | .workdir, some (.workdir dir) => (true, s.onEnv fun env => { env with workdirSet := some dir })
  | _, _ => (false, s)

/-- Makes a binding, and gives the value that it has then. -/
def bind (s : Scene σ) (name : String) (value : Value) : Except String Value × Scene σ :=
  match s.env.set name value with
  | .ok env => (.ok ((env.get? name).getD .nil), { s with env })
  | .error e => (.error e.message, s)

/-- Calls a registered function. -/
def invoke (s : Scene σ) (name : String) (args : List Value) : Except String Value × Scene σ :=
  let (result, env, state) := s.env.call name args s.world.state
  (result, { env, world := { s.world with state } })

/-- Opens a file. -/
def openFile (s : Scene σ) (path : Path) (mode : Script.OpenMode) :
    Except FileFault Unit × Scene σ :=
  let changed (result : Except FileFault FileTree) : Except FileFault Unit × Scene σ :=
    let (result, world) := s.world.change result
    (result, { s with world })
  match mode with
  | .read => ((s.world.files.resolve path).map fun _ => (), s)
  | .update => ((s.world.files.readBytes path).map fun _ => (), s)
  | .truncate => changed (s.world.files.truncate path s.world.now)
  | .append => changed (s.world.files.ensureFile path s.world.now)

/-- Writes to a file. -/
def writeFile (s : Scene σ) (path : Path) (position : Option Nat) (content : Bytes) :
    Except FileFault Unit × Scene σ :=
  let (result, world) := s.world.change (s.world.files.writeAt path position content s.world.now)
  (result, { s with world })

/-- Answers a request of the script of a program; `includePage` includes a page. -/
def answer (includePage : String → Scene σ → Scene σ) (program : Program) (s : Scene σ) :
    (r : Script.Request) → r.Answer × Scene σ
  | .write raw text => ((), s.onEnv (·.write raw text))
  | .instruction kind index => s.perform program kind index
  | .includePage name => ((), includePage name s)
  | .rootdir => (s.env.rootdir.map Path.text, s)
  | .workdir => (s.env.workdir.map Path.text, s)
  | .binding name => ((s.env.get? name).getD .nil, s)
  | .bind name value => s.bind name value
  | .invoke name args => s.invoke name args
  | .openFile path mode => s.openFile path mode
  | .readFile path => (s.world.files.readBytes path, s)
  | .writeFile path position content => s.writeFile path position content
  | .console channel content => ((), { s with world := s.world.print channel content })
  | .now => (s.world.now, s)

/-! ## Runs -/

/-- How many steps a script takes at most between two requests, and how many requests it makes at
most. -/
def maxSteps : Nat := 1000000000000000000

/-- Goes on with a script, answering its requests, `fuel` of them at most. -/
def drive (includePage : String → Scene σ → Scene σ) (program : Program) :
    Nat → Script.Machine.Pause → Scene σ → Option String × Scene σ
  | _, .done result _, s => (Script.reportOfResult result, s)
  | _, .exhausted, s => (some "", s)
  | 0, .ask .., s => (some "", s)
  | fuel + 1, .ask request next, s =>
    let (a, s) := s.answer includePage program request
    drive includePage program fuel ((next a).run maxSteps) s

/-- The directory that scripts of a program keep to: the root of the program, or else of the
environment, or else the current directory of the file tree. -/
def scriptRoot (s : Scene σ) (program : Program) : Path :=
  let declared := program.findSome? fun
    | .rootdir dir => some dir
    | _ => none
  (declared.or s.env.rootdir).getD s.world.files.cwdPath

/-- The machine for the script of a program in an environment. -/
def machine (s : Scene σ) (program : Program) (chunk : Script.Chunk) : Script.Machine :=
  .ofChunk chunk <| ((Script.Heap.initial (s.scriptRoot program)).withBindings s.env.bindings)
    |>.withFunctions s.env.functionNames

/-- Runs a program. -/
def runProgram (includePage : String → Scene σ → Scene σ) (name : String) (program : Program)
    (s : Scene σ) : Except TemplateError Unit × Scene σ :=
  match program.chunk name with
  | .error wording => (.error (.call wording), s)
  | .ok chunk =>
    match drive includePage program maxSteps ((s.machine program chunk).run maxSteps) s with
    | (none, s) => (.ok (), s)
    | (some wording, s) => (.error (.call wording), s)

/-- Evaluates a template; afterwards the template that was being evaluated before is so again. -/
def evaluateWith (includePage : String → Scene σ → Scene σ) (t : Template) (s : Scene σ) :
    Except TemplateError Unit × Scene σ :=
  match t.evaluator with
  | .idle => (.ok (), s)
  | .script =>
    let (result, after) := runProgram includePage t.name t.program (s.onEnv (·.enter t))
    (result, after.onEnv fun env => { env with running := s.env.running })

/-! ## Includes -/

/-- Puts a file on the chain of files that are being included. -/
def enterInclude (env : Environment σ) (file : Path) : Except TemplateError (Environment σ) :=
  if env.including.any (·.same file) then .error (.call s!"循环动态包含 {file.text}")
  else .ok { env with including := env.including ++ [file] }

/-- The template of a page from the cache. -/
def pageFromCache (s : Scene σ) (name : String) : Except TemplateError Template × World σ :=
  match s.world.cache, s.world.cacheHeld with
  | some c, false =>
    match s.world.page c name with
    | (.ok (some t), world) => (.ok t, world)
    | (.ok none, world) => (.error (.call s!"缓存中找不到页面 {name}"), world)
    | (.error e, world) => (.error e, world)
  | _, _ => (.error (.call "模板缓存正被占用"), s.world)

/-- The file that the name of a page stands for. -/
def pageFile (s : Scene σ) (name : String) : Except TemplateError (Path × Path) := do
  let rootdir := s.env.rootdir.getD s.world.files.cwdPath
  let workdir := s.env.workdirSet.getD rootdir
  return (rootdir, ← Path.resolveInclude name.toList workdir rootdir)

/-- The template of a page, with the environment for it. -/
def pageWithin (s : Scene σ) (name : String) :
    Except TemplateError (Template × Environment σ) × World σ :=
  if s.env.hasCache then
    match s.pageFromCache name with
    | (.error e, world) => (.error e, world)
    | (.ok t, world) =>
      match t.paths with
      | [] => (.ok (t, s.env.derive), world)
      | file :: _ => ((enterInclude s.env.derive file).map fun env => (t, env), world)
  else
    let result : Except TemplateError (Template × Environment σ) := do
      let (rootdir, file) ← s.pageFile name
      let env ← enterInclude s.env.derive file
      let evaluator := (s.env.running.map (·.evaluator)).getD .script
      let t ← Template.ofFile evaluator s.world.files s.world.made file (some rootdir)
      return (t, env)
    (result, s.world.withTemplate)

/-- The output of a page that is included. -/
def pageOutput (evaluate : Template → Scene σ → Except TemplateError Unit × Scene σ) (name : String)
    (s : Scene σ) : Except TemplateError String × World σ :=
  match s.pageWithin name with
  | (.error e, world) => (.error e, world)
  | (.ok (t, env), world) =>
    match evaluate t ⟨env, world⟩ with
    | (.ok (), s) => (.ok s.env.output, s.world)
    | (.error e, s) => (.error e, s.world)

/-- The mark in place of a page that cannot be included. -/
def includeMark (name : String) : String := s!"[dynamic include of '{name}' failed]"

/-- Includes a page: writes its output, or a mark when something goes wrong. -/
def includeWith (evaluate : Template → Scene σ → Except TemplateError Unit × Scene σ)
    (name : String) (s : Scene σ) : Scene σ :=
  match s.pageOutput evaluate name with
  | (.ok output, world) => ⟨s.env.writeRaw output, world⟩
  | (.error _, world) => ⟨s.env.writeEscaped (includeMark name), world⟩

/-- Includes a page whose includes may be nested so deeply. -/
def includePageWithin : Nat → String → Scene σ → Scene σ
  | 0, name, s => s.onEnv (·.writeEscaped (includeMark name))
  | depth + 1, name, s => s.includeWith (evaluateWith (includePageWithin depth)) name

/-- How deeply includes can be nested. -/
def maxIncludes : Nat := 2000

/-- Includes a page. -/
def includePage (name : String) (s : Scene σ) : Scene σ := includePageWithin maxIncludes name s

/-! ## Evaluation -/

/-- Evaluates a template. -/
def evaluate (t : Template) (s : Scene σ) : Except TemplateError Unit × Scene σ :=
  evaluateWith includePage t s

/-- Evaluates a template and gives the output that this has added. -/
def render (t : Template) (s : Scene σ) : Except TemplateError String × Scene σ :=
  let start := s.env.output.utf8ByteSize
  match s.evaluate t with
  | (.ok (), s) => (.ok (s.env.outputFrom start), s)
  | (.error e, s) => (.error e, s)

/-- Evaluates a template; when that fails the output is as it was before. -/
def evaluateIsolated (t : Template) (s : Scene σ) : Except TemplateError Bool × Scene σ :=
  let start := s.env.output.utf8ByteSize
  match s.evaluate t with
  | (.ok (), s) => (.ok true, s)
  | (.error e, s) => (.error e, s.onEnv (·.truncateOutput start))

/-- Evaluates a page of the cache; false when there is no such page. With `hold` the cache is held
meanwhile, so that the page cannot include others through it. -/
def evaluatePage (hold : Bool) (name : String) (s : Scene σ) :
    Except TemplateError Bool × Scene σ :=
  match s.world.cache with
  | none => (.ok false, s)
  | some c =>
    match s.world.page c name with
    | (.error e, world) => (.error e, { s with world })
    | (.ok none, world) => (.ok false, { s with world })
    | (.ok (some t), world) =>
      let held := world.cacheHeld
      let (result, s) := evaluateIsolated t { s with world := { world with cacheHeld := hold } }
      (result, { s with world := { s.world with cacheHeld := held } })

end Scene

end BracketTemplate
