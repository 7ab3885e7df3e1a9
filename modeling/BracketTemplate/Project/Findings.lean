import BracketTemplate.Cache.Pages
import BracketTemplate.Project.Config

/-!
# What is wrong with a project

The settings of a project have to be readable, the directory of its templates has to be there, and
each page has to compile. What fails is an error; settings that are missing and a directory without
pages are warnings. The pages are tried in the order of their names, and one that fails does not
keep the others from being tried.
-/

namespace BracketTemplate

/-- What has been found out about a project. -/
structure Findings where
  errors : List String := []
  warnings : List String := []
  deriving DecidableEq, Repr, Inhabited

namespace Findings

/-- Findings together with others. -/
instance : Append Findings where
  append a b := ⟨a.errors ++ b.errors, a.warnings ++ b.warnings⟩

/-- An error and nothing else. -/
def error (wording : String) : Findings := { errors := [wording] }

/-- A warning and nothing else. -/
def warning (wording : String) : Findings := { warnings := [wording] }

/-- The findings that a condition asks for. -/
def when (condition : Bool) (f : Findings) : Findings := if condition then f else {}

/-- Whether there are no errors. -/
def isClean (f : Findings) : Bool := f.errors.isEmpty

/-- The findings about pages, each of them compiled with the cache that the one before has left. -/
def ofPages (o : Occasion) (c : Cache) : List String → Findings
  | [] => {}
  | name :: rest =>
    let (result, c) := c.get o name
    let here : Findings := match result with
      | .ok _ => {}
      | .error e => error s!"{name}: {e.message}"
    here ++ ofPages o c rest

/-- The findings about a directory of templates. -/
def ofTemplates (o : Occasion) (directory : Path) : Except TemplateError Findings := do
  if !o.files.isDirectory directory then
    return error s!"模板目录 {directory.text} 不存在"
  let cache ← Cache.create directory o.files.cwdPath .never .script
  let names ← cache.pageNames o.files
  return when names.isEmpty (warning s!"模板目录 {directory.text} 下没有页面")
    ++ ofPages o cache names

/-- The findings about a project. -/
def ofProject (o : Occasion) (project : Path) : Except TemplateError Findings :=
  match Config.load o.files project with
  | .error wording => .ok (error wording)
  | .ok config => do
    let missing := !o.files.contains (Config.fileOf project)
    return when missing (warning s!"缺少 {Config.fileName}，使用默认配置")
      ++ (← ofTemplates o (config.templateRoot project))

/-! ## Small facts -/

@[simp] theorem errors_append (a b : Findings) : (a ++ b).errors = a.errors ++ b.errors := rfl

@[simp] theorem warnings_append (a b : Findings) :
    (a ++ b).warnings = a.warnings ++ b.warnings := rfl

end Findings

end BracketTemplate
