import BracketTemplate.Script.Conversion
import BracketTemplate.Value.Json

/-!
# Functions that reach the template

A template writes text, includes pages, looks at bindings and makes them, and calls the functions
that were registered for it. None of this happens on the heap of a script: the functions here
convert their arguments, ask the host, and convert the answer.

A form of output makes one text of its arguments and writes that at once, so an argument that has no
text leaves nothing behind.
-/

namespace BracketTemplate.Script.Host

/-! ## Answers -/

/-- A value of a template as the single result. -/
def giveValue (v : Value) : Act (List Val) := .update fun h =>
  let (x, h) := h.import v
  ([x], h)

/-- A text as the single result, or `nil`. -/
def giveText? : Option String → Act (List Val)
  | some s => pure [.ofString s]
  | none => pure [.nil]

/-! ## Characters -/

/-- The report of a number that is no character. -/
def failCode {α : Type} (shown : String) : Act α := .failHost s!"无效的字符编码 {shown}"

/-- The character with a code. -/
def charOfCode (code : Int) : Act String :=
  if h : 0 ≤ code ∧ code.toNat.isValidChar then
    pure (String.singleton (Char.ofNatAux code.toNat h.2))
  else failCode (toString code)

/-- The character for a value: a number is its code, and of a text it is the first. -/
def charOf (v : Val) : Act String := do
  match v with
  | .int i => charOfCode i.toInt
  | .float x =>
    match Binary64.exactInt? x with
    | some n => if 0 ≤ n && n < twoTo 32 then charOfCode n else failCode (Value.displayFloat x)
    | none => failCode (Value.displayFloat x)
  | v => return String.ofList ((← stringify v).toList.take 1)

/-! ## Forms of output -/

/-- The texts of values in a row. -/
def textsOf : List Val → Act String
  | [] => pure ""
  | v :: rest => do
    let text ← stringify v
    return text ++ (← textsOf rest)

/-- The texts of values in a row, each with an end of line. -/
def linesOf : List Val → Act String
  | [] => pure ""
  | v :: rest => do
    let text ← stringify v
    let line := if text.toList.getLast? == some '\n' then text else text ++ "\n"
    return line ++ (← linesOf rest)

/-- The written forms of values in a row, each with an end of line. -/
def dumpsOf (form : Value → String) : List Val → Act String
  | [] => pure ""
  | v :: rest => do
    let x ← v.export
    return form x ++ "\n" ++ (← dumpsOf form rest)

/-- The field of a value under a name, as the host sees it, which has to be a table. -/
def fieldOf (v : Val) (name : String) : Act Val :=
  match v with
  | .table _ => Operation.index {} v (.ofString name)
  | v => .failHost (conversionFault v "table" none)

/-- The text that a form of output makes of its arguments. -/
def outputText (form : OutputForm) (a : Arguments) : Act String := do
  match form with
  | .print => textsOf a.values
  | .puts => if a.values.isEmpty then return "\n" else linesOf a.values
  | .putc => charOf (a.get 1)
  | .printf =>
    let format ← fieldOf (← globalField "string") "format"
    hostResult (← callFromHost format a.values)
  | .write => stringify (a.get 1)
  | .dump => dumpsOf Value.toJson a.values
  | .prettyDump => dumpsOf Value.toPrettyJson a.values

/-- Writes the text that a form of output makes of its arguments. One form gives the number of its
characters. -/
def output (form : OutputForm) (raw : Bool) (a : Arguments) : Act (List Val) := do
  let text ← outputText form a
  Act.ask (.write raw text)
  match form with
  | .write => giveNat text.length
  | _ => return []

/-! ## The functions -/

/-- Carries out an instruction of the template. -/
def perform (kind : InstructionKind) (a : Arguments) : Act (List Val) := do
  let index ← a.converted 1 Val.hostNat
  let known : Bool ← Act.ask (.instruction kind index)
  if known then return []
  else .failHost s!"指令 {index} 类型不符"

/-- Makes a binding, and the global variable of its name. -/
def bind (a : Arguments) : Act (List Val) := do
  let name ← a.hostText 1
  let value ← (a.get 2).export
  match ← Act.ask (.bind name value) with
  | .error wording => .failHost wording
  | .ok bound => do
    let global := String.ofList (name.toList.dropWhile (· = '@'))
    let v ← Act.update fun h => h.import bound
    Operation.setIndex {} (.table (← Act.read (·.globals))) (.ofString global) v
    return []

/-- Calls a function that was registered under a name. -/
def invoke (name : String) (a : Arguments) : Act (List Val) := do
  let args ← exportAll a.values
  match ← Act.ask (.invoke name args) with
  | .ok v => giveValue v
  | .error wording => .failHost s!"{name}: {wording}"

/-- Runs a function that reaches the template. -/
def run (f : HostFunction) (a : Arguments) : Act (List Val) :=
  match f with
  | .text => perform .text a
  | .rootdirAt => perform .rootdir a
  | .workdirAt => perform .workdir a
  | .printValue raw => do
    let text ← stringify (a.get 1)
    Act.ask (.write raw text)
    return []
  | .output form raw => output form raw a
  | .include => do
    Act.ask (.includePage (← a.hostText 1))
    return []
  | .rootdir => do giveText? (← Act.ask .rootdir)
  | .workdir => do giveText? (← Act.ask .workdir)
  | .get => do giveValue (← Act.ask (.binding (← a.hostText 1)))
  | .set => bind a
  | .registered name => invoke name a

/-- The names of the forms of output. -/
def forms : List (String × OutputForm) :=
  [("print", .print), ("puts", .puts), ("putc", .putc), ("printf", .printf), ("write", .write),
    ("p", .dump), ("pp", .prettyDump)]

/-- The functions under their names. -/
def names : List (String × HostFunction) :=
  [("__text", .text), ("__rootdir", .rootdirAt), ("__workdir", .workdirAt),
    ("__print_escaped", .printValue false), ("__print_raw", .printValue true)]
    ++ forms.map (fun (name, form) => (name, .output form false))
    ++ forms.map (fun (name, form) => (name ++ "_raw", .output form true))
    ++ [("include", .include), ("rootdir", .rootdir), ("workdir", .workdir), ("get", .get),
      ("set", .set)]

end BracketTemplate.Script.Host
