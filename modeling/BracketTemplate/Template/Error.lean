import BracketTemplate.Decimal.Shortest
import BracketTemplate.Files.Fault
import BracketTemplate.Path.Basic
import BracketTemplate.Text.Lines

/-!
# Template errors

Everything that can go wrong between a source and its output is one of six kinds, and each kind says
why it arises:

* *compile*: the delimiters of a source do not fit together, or a static include cannot be followed;
  it names a place and shows the lines around it;
* *eval*: the script made from a template is no script;
* *call*: a script fails while it runs, or a dynamic include is refused;
* *security*: a path leads, or could lead, out of its root;
* *binding*: a name cannot be bound;
* *io*: a file cannot be read.

`TemplateError.message` is the report of an error. `excerpt` is the part of it that shows source
lines: two before the line in question, the line itself with a marker, and two after it.
-/

namespace BracketTemplate

/-- Why a source does not compile. -/
inductive CompileCause where
  /-- A code region is not closed. -/
  | unclosed
  /-- A file includes itself, directly or through others. -/
  | circular (target : Path)
  /-- The target of a static include cannot be read. -/
  | unreadable (target : Path) (fault : FileFault)
  /-- No rule of the delimiter grammar applies; what follows is shown. -/
  | unrecognized (ahead : List Char)
  /-- A directory is left that was never entered. -/
  | noDirectory
  /-- A cause given by its wording. -/
  | other (wording : String)
  deriving DecidableEq, Repr

/-- Why a path is not safe. -/
inductive SecurityCause where
  /-- It starts with a tilde. -/
  | tilde
  /-- It has a segment `..`. -/
  | parentSegment
  /-- It does not lie within a root. -/
  | outside (root : Path)
  /-- It has no directory. -/
  | noParent
  /-- A cause given by its wording. -/
  | other (wording : String)
  deriving DecidableEq, Repr

/-- What can go wrong with a template. -/
inductive TemplateError where
  | compile (file : String) (line column : Nat) (cause : CompileCause) (excerpt : String)
  | eval (file : String) (wording : String)
  | call (wording : String)
  | security (path : Path) (cause : SecurityCause)
  | binding (name : String)
  | io (path : Path) (fault : FileFault)
  deriving DecidableEq, Repr

/-- The wording of a cause. -/
def CompileCause.message : CompileCause → String
  | unclosed => "代码区未闭合，缺少 ']'"
  | circular target => s!"循环包含 {target.text}"
  | unreadable target fault => s!"无法打开 {target.text} 进行包含：{fault.message}"
  | unrecognized ahead => s!"无法识别的输入 '{String.ofList ahead}'"
  | noDirectory => "目录栈为空，无法弹出"
  | other wording => wording

/-- The wording of a cause. -/
def SecurityCause.message : SecurityCause → String
  | tilde => "不允许以 '~' 开头"
  | parentSegment => "路径包含 '..'"
  | outside root => s!"不在 {root.text} 之内"
  | noParent => "没有所在目录"
  | other wording => wording

/-! ## Excerpts -/

/-- A line of an excerpt: a marker on the line in question, the number of the line set to a width,
and the line. -/
def excerptLine (width marked number : Nat) (line : List Char) : List Char :=
  let digits := Decimal.digitsOf number
  ' ' :: ' ' :: (if number = marked then '>' else ' ') :: ' ' ::
    List.replicate (width - digits.length) ' ' ++ digits ++ ' ' :: '|' :: ' ' :: line ++ ['\n']

/-- The lines around a line of a source, from two before it to two after it as far as there are
any. All numbers are as wide as that of the last line shown. -/
def excerpt (source : List Char) (line : Nat) : String :=
  let all := lines source
  let first := line - 3
  let last := min (line + 2) all.length
  let width := (Decimal.digitsOf last).length
  let shown := (all.take last).drop first
  String.ofList (shown.mapIdx fun i text => excerptLine width line (first + i + 1) text).flatten

namespace TemplateError

/-- A compile error at a place of a source. -/
def compileAt (file : String) (position : Position) (cause : CompileCause)
    (source : List Char) : TemplateError :=
  .compile file position.line position.column cause (BracketTemplate.excerpt source position.line)

/-- A compile error that has no place in a source. -/
def compileBare (file : String) (cause : CompileCause) : TemplateError :=
  .compile file 0 0 cause ""

/-- The report of an error. -/
def message : TemplateError → String
  | compile file line column cause excerpt =>
    s!"模板编译错误\n  → {file}:{line}:{column}\n\n{excerpt}  错误：{cause.message}"
  | eval file wording => s!"求值错误\n  → {file}\n\n  错误：{wording}"
  | call wording => s!"调用错误：{wording}"
  | security path cause => s!"路径不安全：{path.text}（{cause.message}）"
  | binding name => s!"非法绑定名：{name}"
  | io path fault => s!"读取 {path.text} 失败：{fault.message}"

/-- Whether the error is about the delimiters or the static includes of a source. -/
def isCompile : TemplateError → Bool
  | compile .. => true
  | _ => false

/-- Whether the error is about an unsafe path. -/
def isSecurity : TemplateError → Bool
  | security .. => true
  | _ => false

end TemplateError

end BracketTemplate
