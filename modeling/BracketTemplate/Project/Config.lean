import BracketTemplate.Cache.Policy
import BracketTemplate.Environment.Basic
import BracketTemplate.Text.Html
import BracketTemplate.Toml.Reader

/-!
# The settings of a project

A project may have a file of settings: where its templates are, when they are compiled again,
whether output is escaped, and how much is logged. What is not set has a default, and what is not
known is ignored. A section can be written as a table or, field by field, as a list.
-/

namespace BracketTemplate

/-- How output is escaped. -/
inductive EscapeMode where
  | html
  | none
  deriving DecidableEq, Repr, Inhabited

/-- The settings of a project. -/
structure Config where
  /-- The directory of the templates, as seen from the project. -/
  root : Path := Path.ofString "templates"
  reloadTime : Option Float := none
  escape : EscapeMode := .html
  level : String := "info"
  deriving Inhabited

namespace Config

/-- The name of the file of settings. -/
def fileName : String := "kuohao.toml"

/-! ## Settings -/

/-- The setting of a field of a section. -/
def field? (section? : Option Toml) (name : String) (place : Nat) : Option (Option Toml) :=
  match section? with
  | none => some none
  | some (.table _ entries) => some (entries.lookup name)
  | some (.list items) => some items[place]?
  | some (.tables all) => some (all[place]?.map fun entries => .table .header entries)
  | some _ => none

/-- A setting that is read in some way, or a default. -/
def read {α : Type} (default : α) (ofToml : Toml → Option α) : Option Toml → Option α
  | none => some default
  | some v => ofToml v

/-- A text. -/
def text? : Toml → Option String
  | .text s => some s
  | _ => none

/-- A number. -/
def number? : Toml → Option Float
  | .integer n => some n.toFloat
  | .float x => some x
  | _ => none

/-- The mode of a name. -/
def EscapeMode.ofName? : String → Option EscapeMode
  | "html" => some .html
  | "none" => some .none
  | _ => Option.none

/-- Whether a setting is an empty table or list. -/
def isEmptyGroup : Toml → Bool
  | .table _ [] | .list [] | .tables [] => true
  | _ => false

/-- A mode: its name, or a table with the name as its only key and nothing in it. -/
def mode? : Toml → Option EscapeMode
  | .text name => EscapeMode.ofName? name
  | .table _ [(name, v)] => if isEmptyGroup v then EscapeMode.ofName? name else Option.none
  | _ => Option.none

/-- The settings in a document. -/
def ofEntries? (entries : Toml.Entries) : Option Config := do
  let templates := entries.lookup "templates"
  let root ← read (Path.ofString "templates") (fun v => (text? v).map Path.ofString)
    (← field? templates "root" 0)
  let reloadTime ← read Option.none (fun v => (number? v).map some)
    (← field? templates "reload_time" 1)
  let escape ← read EscapeMode.html mode? (← field? (entries.lookup "render") "escape" 0)
  let level ← read "info" text? (← field? (entries.lookup "log") "level" 0)
  return { root, reloadTime, escape, level }

/-! ## Projects -/

/-- The path of the file of settings of a project. -/
def fileOf (project : Path) : Path := project.join (Path.ofString fileName)

/-- The settings of a project, or what is wrong with them. -/
def load (tree : FileTree) (project : Path) : Except String Config :=
  if !tree.contains (fileOf project) then .ok {}
  else
    match tree.readText (fileOf project) with
    | .error fault => .error s!"读取 {fileName} 失败：{fault.message}"
    | .ok source =>
      match (Toml.ofText? source).bind ofEntries? with
      | some config => .ok config
      | none => .error s!"解析 {fileName} 失败：TOML parse error"

/-- The directory of the templates of a project. -/
def templateRoot (c : Config) (project : Path) : Path := project.join c.root

/-- When templates are compiled again. -/
def policy (c : Config) : ReloadPolicy := .ofReloadTime c.reloadTime

/-- What a mode makes of a text. -/
def EscapeMode.apply : EscapeMode → String → String
  | .html => fun s => String.ofList (Html.escape s.toList)
  | .none => id

/-- An environment that escapes as the settings say. -/
def environment {σ : Type} (c : Config) : Environment σ := .new (EscapeMode.apply c.escape)

end Config

end BracketTemplate
