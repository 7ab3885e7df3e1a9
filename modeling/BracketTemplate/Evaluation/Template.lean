import BracketTemplate.Evaluation.Check
import BracketTemplate.Template.Source

/-!
# Templates

A template is a compiled source with an identity and with the evaluator that it was compiled for.
Every compilation makes a template of its own, so two templates are the same exactly when they have
the same identity.
-/

namespace BracketTemplate

/-- What runs the code of templates. -/
inductive Evaluator where
  /-- Code is script. -/
  | script
  /-- All code is accepted, and none is run. -/
  | idle
  deriving DecidableEq, Repr, Inhabited

/-- The test of an evaluator. -/
def Evaluator.accepts : Evaluator → String → Program → Except TemplateError Unit
  | script => Program.check
  | idle => Program.acceptAll

/-- A compiled source. -/
structure Template where
  identity : Nat
  compiled : Compiled
  evaluator : Evaluator
  deriving DecidableEq, Repr, Inhabited

namespace Template

/-- The name of a template in reports. -/
def name (t : Template) : String := t.compiled.name

/-- The instructions of a template. -/
def program (t : Template) : Program := t.compiled.program

/-- The files that a template depends on. -/
def paths (t : Template) : List Path := t.compiled.paths

/-- The template that a source compiles to. -/
def ofSource (evaluator : Evaluator) (tree : FileTree) (identity : Nat) (s : Source) :
    Except TemplateError Template := do
  return ⟨identity, ← s.compile evaluator.accepts tree, evaluator⟩

/-- The template that a file compiles to. -/
def ofFile (evaluator : Evaluator) (tree : FileTree) (identity : Nat) (file : Path)
    (rootdir : Option Path) : Except TemplateError Template := do
  ofSource evaluator tree identity (← Source.ofFile tree file rootdir)

/-- Whether two templates come from the same compilation. -/
def same (t u : Template) : Bool := t.identity == u.identity

end Template

end BracketTemplate
