import BracketTemplate.Template.Error

/-!
# Confined paths

A template may name other files, and must not reach out of its root by doing so. Two tests guard
every such name:

* `checkSegments` refuses a path that starts with a tilde or has a segment `..`, so what it joins to
  a directory stays below that directory;
* `ensureWithin` asks that the components of a path start with those of the root.

`resolveInclude` finds the file that a name stands for: a name that starts with a slash is taken
from the root, any other from the current directory.
-/

namespace BracketTemplate.Path

/-- Refuses a path that starts with a tilde or has a segment `..`. -/
def checkSegments (path : Path) : Except TemplateError Unit :=
  if path.chars.head? = some '~' then .error (.security path .tilde)
  else if path.hasParentSegment then .error (.security path .parentSegment)
  else .ok ()

/-- The absolute spelling of a path that passes `checkSegments`. -/
def absolutize (path cwd : Path) : Except TemplateError Path := do
  path.checkSegments
  if path.chars.isEmpty then .error (.io path .emptyPath)
  else return path.absoluteFrom cwd

/-- Refuses a path that does not lie within a root. -/
def ensureWithin (path root : Path) : Except TemplateError Unit :=
  if path.startsWith root then .ok () else .error (.security path (.outside root))

/-- The file that the name of an include stands for. -/
def resolveInclude (name : List Char) (workdir rootdir : Path) : Except TemplateError Path := do
  (Path.mk name).checkSegments
  let full := match name with
    | '/' :: rooted => rootdir.join ⟨rooted.dropWhile (· = '/')⟩
    | _ => workdir.join ⟨name⟩
  full.ensureWithin rootdir
  return full

theorem checkSegments_eq_ok {path : Path} :
    path.checkSegments = .ok () ↔
      path.chars.head? ≠ some '~' ∧ path.hasParentSegment = false := by
  simp only [checkSegments]
  split
  · simp_all
  · split <;> simp_all

theorem ensureWithin_eq_ok {path root : Path} :
    path.ensureWithin root = .ok () ↔ path.startsWith root = true := by
  simp only [ensureWithin]
  split <;> simp_all

end BracketTemplate.Path
