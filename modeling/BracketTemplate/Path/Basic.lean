import BracketTemplate.Text.Split

/-!
# Paths

A path is a text, and two texts can spell one path: empty segments and segments `.` do not count,
except that a relative path keeps a `.` it starts with. `Path.components` is that reading. Paths
are compared by it (`Path.same`), prefixes are taken segment by segment (`Path.startsWith`), and the
spelling is kept wherever a path is shown or handed on.

Nothing here looks at files. In particular `..` is a component like any other; only a file tree can
say where it leads.
-/

namespace BracketTemplate

/-- A path, as it is spelled. -/
structure Path where
  chars : List Char
  deriving DecidableEq, Repr, Inhabited

/-- A segment that counts. -/
inductive Path.Component where
  /-- The slash that an absolute path starts with. -/
  | root
  /-- The `.` that a relative path starts with. -/
  | current
  /-- A segment `..`. -/
  | parent
  /-- Any other segment. -/
  | name (segment : List Char)
  deriving DecidableEq, Repr

namespace Path

/-- The path with a spelling. -/
def ofString (s : String) : Path := ⟨s.toList⟩

/-- The spelling of a path. -/
def text (p : Path) : String := String.ofList p.chars

/-- Whether the path starts at the root. -/
def isAbsolute (p : Path) : Bool := p.chars.head? = some '/'

/-- The segments between slashes, blank ones included. -/
def segments (p : Path) : List (List Char) := splitAt '/' p.chars

/-- The component that a segment behind the first place stands for. -/
def Component.ofSegment : List Char → Option Component
  | [] => none
  | ['.'] => none
  | ['.', '.'] => some .parent
  | segment => some (.name segment)

/-- What stands before the segments: the root, a leading `.`, or nothing. -/
def front (p : Path) : List Component :=
  if p.isAbsolute then [.root]
  else if p.segments.head? = some ['.'] then [.current]
  else []

/-- The components of a path. -/
def components (p : Path) : List Component :=
  p.front ++ p.segments.filterMap Component.ofSegment

/-- Two spellings of one path. -/
def same (p q : Path) : Bool := p.components == q.components

/-- Whether the components of one path start with those of another. -/
def startsWith (p base : Path) : Bool := base.components.isPrefixOf p.components

/-- Whether some component is `..`. -/
def hasParentSegment (p : Path) : Bool := p.components.contains .parent

/-- A path followed by another: an absolute one takes its place, a relative one goes behind a
slash. -/
def join (p q : Path) : Path :=
  if q.isAbsolute then q
  else if p.chars.isEmpty || p.chars.getLast? = some '/' then ⟨p.chars ++ q.chars⟩
  else ⟨p.chars ++ '/' :: q.chars⟩

/-! ## The directory of a path -/

/-- Takes blank segments and segments `.` off the end of a path that is written backwards. -/
def dropBlank : List Char → List Char
  | '/' :: rest => dropBlank rest
  | ['.'] => []
  | '.' :: '/' :: rest => dropBlank rest
  | other => other

/-- How many characters stand before the first segment: a root slash or a leading `.`. -/
def frontLength (p : Path) : Nat := p.front.length

/-- The path without its last component; none when there is no segment to take off. -/
def parent? (p : Path) : Option Path :=
  let head := p.chars.take p.frontLength
  let body := dropBlank (p.chars.drop p.frontLength).reverse
  if body.isEmpty then
    if p.front = [.current] then some ⟨[]⟩ else none
  else
    let rest := (body.dropWhile (· ≠ '/')).drop 1
    some ⟨head ++ (dropBlank rest).reverse⟩

/-- The spelling of a component. -/
def Component.chars : Component → List Char
  | root => ['/']
  | current => ['.']
  | parent => ['.', '.']
  | name segment => segment

/-- The components of a path below a base, when it is below; spelled with single slashes. -/
def relativeTo? (p base : Path) : Option Path :=
  if p.startsWith base then
    let below := p.components.drop base.components.length
    some ⟨joinWith '/' (below.map Component.chars)⟩
  else none

/-- The absolute spelling of a path that is not empty, seen from an absolute directory: a relative
one goes behind the directory, blank segments and segments `.` are dropped, a slash at the end and
exactly two slashes at the start are kept. -/
def absoluteFrom (p cwd : Path) : Path :=
  let start : Path × List Component :=
    if p.isAbsolute then
      match p.chars with
      | '/' :: '/' :: '/' :: _ => (⟨[]⟩, p.components)
      | '/' :: '/' :: _ => (⟨['/', '/']⟩, p.components.drop 1)
      | _ => (⟨[]⟩, p.components)
    else (cwd, p.components.filter (· ≠ .current))
  let path := start.2.foldl (fun built component => built.join ⟨component.chars⟩) start.1
  if p.chars.getLast? = some '/' then path.join ⟨[]⟩ else path

/-! ## Small facts -/

@[simp] theorem same_refl (p : Path) : p.same p = true := by simp [same]

theorem same_iff {p q : Path} : p.same q = true ↔ p.components = q.components := by simp [same]

theorem same_comm (p q : Path) : p.same q = q.same p := by simp [same, Bool.beq_comm]

theorem startsWith_iff {p base : Path} :
    p.startsWith base = true ↔ base.components <+: p.components := by
  simp [startsWith]

@[simp] theorem startsWith_self (p : Path) : p.startsWith p = true := by
  simp [startsWith_iff]

theorem startsWith_trans {p q r : Path} (h : p.startsWith q = true) (k : q.startsWith r = true) :
    p.startsWith r = true :=
  startsWith_iff.2 ((startsWith_iff.1 k).trans (startsWith_iff.1 h))

end Path

end BracketTemplate
