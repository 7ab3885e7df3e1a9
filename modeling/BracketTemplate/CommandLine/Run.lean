import BracketTemplate.CommandLine.Arguments
import BracketTemplate.Environment.Evaluation
import BracketTemplate.Evaluation.Check
import BracketTemplate.Project.Findings
import BracketTemplate.Template.Source
import BracketTemplate.Value.JsonReader

/-!
# Running a command

A command turns the files and the standard input into an outcome: an exit code, what is written to
the standard output and the standard error, and the files as they are then. The settings of the
project are read first, whatever the command is.

A template below the directory of templates is a page: it is evaluated through a cache and its
dynamic includes are looked up there. Any other is evaluated by itself. The output is written when
the evaluation has come to its end; what scripts write to the console themselves comes before it,
or, when they leave it to the end of the process, behind it.
-/

namespace BracketTemplate

/-- What a process leaves. -/
structure ProcessOutcome where
  code : UInt8
  output : Bytes := []
  error : Bytes := []
  files : FileTree
  deriving Inhabited

/-- Why a command fails, in words, with the cause that is told beneath. -/
structure CommandFailure where
  wording : String
  cause : Option String := none
  deriving DecidableEq, Repr, Inhabited

namespace CommandFailure

/-- The failure that an error of a template is. Only a file that cannot be read has a cause. -/
def ofTemplateError (e : TemplateError) : CommandFailure :=
  match e with
  | .io _ fault => ⟨e.message, some fault.message⟩
  | _ => ⟨e.message, none⟩

/-- The report of a failure. -/
def report (f : CommandFailure) : String :=
  match f.cause with
  | none => s!"Error: {f.wording}\n"
  | some cause => s!"Error: {f.wording}\n\nCaused by:\n    {cause}\n"

end CommandFailure

namespace CommandLine

/-- What a command looks at: the files, the time in nanoseconds and the standard input. -/
structure Surroundings where
  files : FileTree
  now : Int
  input : Bytes
  deriving Inhabited

namespace Surroundings

/-- The occasion for looking up pages. -/
def occasion (s : Surroundings) : Occasion := ⟨s.files, s.now, 0⟩

/-- The world around an evaluation. -/
def world (s : Surroundings) (cache : Option Cache) : World Unit :=
  { files := s.files, now := s.now, cache, state := () }

/-- An outcome that changes no files. -/
def outcome (s : Surroundings) (code : UInt8) (output error : String) : ProcessOutcome :=
  { code, output := utf8 output, error := utf8 error, files := s.files }

/-- The outcome of a failure. -/
def failed (s : Surroundings) (f : CommandFailure) : ProcessOutcome := s.outcome 1 "" f.report

/-- The standard input as a text. -/
def inputText (s : Surroundings) : Except CommandFailure (List Char) :=
  match Utf8.decode? s.input with
  | .ok text => .ok text
  | .error _ => .error ⟨FileFault.invalidUtf8.message, none⟩

/-- The source in a file, or in the standard input. -/
def source (s : Surroundings) (file : Option Path) : Except CommandFailure Source :=
  match file with
  | some file => (Source.ofFile s.files file none).mapError .ofTemplateError
  | none => do
    (Source.ofText s.files (← s.inputText) none none none).mapError .ofTemplateError

/-! ## Commands -/

/-- Says whether a template compiles. -/
def check (s : Surroundings) (file : Option Path) : ProcessOutcome :=
  let wellformed := match s.source file with
    | .ok source => source.wellformed Program.check s.files
    | .error _ => false
  if wellformed then s.outcome 0 "" "ok\n" else s.outcome 1 "" "not ok\n"

/-- The bindings in a file, which is a JSON object. -/
def variablesIn (s : Surroundings) (file : Path) : Except CommandFailure (List (String × Value)) :=
  match s.files.readText file with
  | .error fault => .error ⟨s!"读取 {file.text} 失败：{fault.message}", none⟩
  | .ok text =>
    match Value.ofJson? (String.ofList text) with
    | .error wording => .error ⟨wording, none⟩
    | .ok (.map entries) => .ok entries
    | .ok _ => .error ⟨s!"{file.text} 必须是 JSON 对象", none⟩

/-- The name and the value of a variable that is given as `NAME=VALUE`. -/
def variableOf (text : String) : Except CommandFailure (String × Value) :=
  match valueBehind? text.toList with
  | none => .error ⟨s!"变量格式应为 NAME=VALUE：{text}", none⟩
  | some value =>
    .ok (String.ofList (text.toList.takeWhile (· ≠ '=')), .parseLenient (String.ofList value))

/-- The bindings of a file, made in order. -/
def bindFile (s : Surroundings) (env : Environment Unit) (file : Path) :
    Except CommandFailure (Environment Unit) := do
  match env.update (← s.variablesIn file) with
  | (.ok (), env) => return env
  | (.error e, _) => .error (.ofTemplateError e)

/-- The binding of a variable. -/
def bindVariable (env : Environment Unit) (text : String) :
    Except CommandFailure (Environment Unit) := do
  let (name, value) ← variableOf text
  (env.set name value).mapError .ofTemplateError

/-- The environment for rendering: first the bindings of the file are made, then the others. -/
def environment (s : Surroundings) (config : Config) (bindings : List String)
    (variableFile : Option Path) : Except CommandFailure (Environment Unit) := do
  let env := config.environment
  let env ← match variableFile with
    | none => pure env
    | some file => s.bindFile env file
  bindings.foldlM bindVariable env

/-- The name of the page that a file is, when it is below a directory. -/
def pageName? (s : Surroundings) (templates : Path) (file : Option Path) : Option String := do
  let below ← ((← file).absoluteFrom s.files.cwdPath).relativeTo? templates
  return String.ofList (below.chars.map fun c => if c = '\\' then '/' else c)

/-- Evaluates a page. -/
def renderPage (s : Surroundings) (config : Config) (templates : Path) (page : String)
    (env : Environment Unit) : Except CommandFailure Unit × Scene Unit :=
  match Cache.create templates s.files.cwdPath config.policy .script with
  | .error e => (.error (.ofTemplateError e), ⟨env, s.world none⟩)
  | .ok cache =>
    match Scene.evaluatePage false page ⟨{ env with hasCache := true }, s.world (some cache)⟩ with
    | (.ok true, scene) => (.ok (), scene)
    | (.ok false, scene) => (.error ⟨s!"页面 {page} 不存在", none⟩, scene)
    | (.error e, scene) => (.error (.ofTemplateError e), scene)

/-- Evaluates a template by itself. -/
def renderSource (s : Surroundings) (file : Option Path) (env : Environment Unit) :
    Except CommandFailure Unit × Scene Unit :=
  let start : Scene Unit := ⟨env, (s.world none).withTemplate⟩
  match s.source file with
  | .error f => (.error f, start)
  | .ok source =>
    match Template.ofSource .script s.files 0 source with
    | .error e => (.error (.ofTemplateError e), start)
    | .ok t =>
      let (result, scene) := start.evaluate t
      (result.mapError .ofTemplateError, scene)

/-- The outcome of an evaluation. -/
def rendered (result : Except CommandFailure Unit) (scene : Scene Unit) : ProcessOutcome :=
  let console := scene.world.console
  let files := scene.world.files
  match result with
  | .ok () =>
    { code := 0, output := console.output ++ utf8 scene.env.output ++ console.late
      error := console.error, files }
  | .error f =>
    { code := 1, output := console.output ++ console.late
      error := console.error ++ utf8 f.report, files }

/-- Evaluates a template and writes the output. -/
def render (s : Surroundings) (config : Config) (project : Path) (file : Option Path)
    (bindings : List String) (variableFile : Option Path) : ProcessOutcome :=
  match s.environment config bindings variableFile with
  | .error f => s.failed f
  | .ok env =>
    let templates := (config.templateRoot project).absoluteFrom s.files.cwdPath
    let (result, scene) := match s.pageName? templates file with
      | some page => s.renderPage config templates page env
      | none => s.renderSource file env
    rendered result scene

/-- Lists the pages. -/
def pages (s : Surroundings) (config : Config) (project : Path) : ProcessOutcome :=
  let names := do
    let cache ← Cache.create (config.templateRoot project) s.files.cwdPath config.policy .script
    cache.pageNames s.files
  match names with
  | .error e => s.failed (.ofTemplateError e)
  | .ok names => s.outcome 0 (String.join (names.map fun name => name ++ "\n")) ""

/-- The failure of a project that has errors. -/
def findingsFailure (f : Findings) : CommandFailure :=
  let errors := f.errors.length
  let warnings := f.warnings.length
  ⟨s!"检查未通过：{errors} 个错误，{warnings} 个警告", none⟩

/-- Says whether a project is in order. -/
def lint (s : Surroundings) (project : Path) : ProcessOutcome :=
  match Findings.ofProject s.occasion project with
  | .error e => s.failed (.ofTemplateError e)
  | .ok findings =>
    if findings.isClean then s.outcome 0 "" "" else s.failed (findingsFailure findings)

end Surroundings

end CommandLine

open CommandLine in
/-- Does what is asked for. -/
def Invocation.run (i : Invocation) (s : Surroundings) : ProcessOutcome :=
  match Config.load s.files i.project with
  | .error wording => s.failed ⟨wording, none⟩
  | .ok config =>
    match i.command with
    | .check file => s.check file
    | .render file bindings variableFile => s.render config i.project file bindings variableFile
    | .pages => s.pages config i.project
    | .lint => s.lint i.project

end BracketTemplate
