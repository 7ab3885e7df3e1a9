import BracketTemplate.Files.Tree
import BracketTemplate.Path.Confined
import BracketTemplate.Template.Scan

/-!
# Sources and their compilation

A source is a text together with the directories that its includes are resolved against and, when it
comes from a file, the path of that file. All paths are checked when a source is made: the current
directory lies within the root, and the file within the current directory.

`Source.compile` scans a source into a draft. A static include is followed on the spot: the file is
read, scanned into the same draft with its own directory as the current one, and the including
source goes on behind it. A file that is on the chain of includes already is refused, so the chain
is never longer than there are files (`Source.scanInto` counts it down), and since every step of
scanning takes at least one character, a source of `n` characters is done after `n` steps.

What a program needs of its evaluator is a test, given as an argument: `compile` ends with it.
-/

namespace BracketTemplate

/-- A text to compile, where it comes from and where its includes are looked for. -/
structure Source where
  text : List Char
  workdir : Path
  rootdir : Path
  file : Option Path
  deriving DecidableEq, Repr, Inhabited

/-- What a source compiles to. -/
structure Compiled where
  name : String
  program : Program
  /-- The files that the program depends on, in the order of their first use. -/
  paths : List Path
  deriving DecidableEq, Repr, Inhabited

namespace Source

/-- A source from a text. The current directory is that of the file tree unless given, the root is
the current directory unless given, and a relative file lies in the current directory. -/
def ofText (tree : FileTree) (text : List Char) (workdir rootdir file : Option Path) :
    Except TemplateError Source := do
  let workdir ← match workdir with
    | some dir => dir.absolutize tree.cwdPath
    | none => .ok tree.cwdPath
  let rootdir ← match rootdir with
    | some dir => dir.absolutize tree.cwdPath
    | none => .ok workdir
  workdir.ensureWithin rootdir
  match file with
  | none => return ⟨text, workdir, rootdir, none⟩
  | some file =>
    file.checkSegments
    let file := if file.isAbsolute then file else workdir.join file
    file.ensureWithin workdir
    return ⟨text, workdir, rootdir, some file⟩

/-- The source in a file. The current directory is the directory of the file, and the root is that
too unless given. -/
def ofFile (tree : FileTree) (file : Path) (rootdir : Option Path) :
    Except TemplateError Source := do
  let file ← file.absolutize tree.cwdPath
  match file.parent? with
  | none => .error (.security file .noParent)
  | some workdir =>
    match tree.readText file with
    | .error fault => .error (.io file fault)
    | .ok text => ofText tree text (some workdir) (some (rootdir.getD workdir)) (some file)

/-- The name of a source in reports. -/
def name (s : Source) : String :=
  match s.file with
  | some file => file.text
  | none => "(source)"

/-- A compile error at a place of a source. -/
def errorAt (s : Source) (position : Position) (cause : CompileCause) : TemplateError :=
  .compileAt s.name position cause s.text

/-! ## Scanning a source to its end -/

/-- The outcome of work on a draft. -/
abbrev Outcome := Except TemplateError Unit × Draft

/-- What is left to say when a source has been read: a region may still be open. -/
def finishScan (s : Source) (mode : Mode) (openedAt : Position) (draft : Draft) : Outcome :=
  if mode = .code ∨ draft.opened ≠ 0 then (.error (s.errorAt openedAt .unclosed), draft)
  else (.ok (), draft.flushText)

/-- Steps through a source to its end, at most `fuel` steps; static includes are left to
`follow`. -/
def scanLoop (s : Source) (follow : List Char → Position → Draft → Outcome) :
    Nat → Mode → Position → Scan.State → Outcome
  | 0, mode, openedAt, state => s.finishScan mode openedAt state.draft
  | fuel + 1, mode, openedAt, state =>
    if state.cursor.atEnd then s.finishScan mode openedAt state.draft
    else
      let here := state.cursor.position
      match mode.scan state with
      | (.proceed, state) => s.scanLoop follow fuel mode openedAt state
      | (.switch next, state) =>
        s.scanLoop follow fuel next (if next = .code then here else openedAt) state
      | (.includes name trimRight, state) =>
        match follow name here state.draft with
        | (.error e, draft) => (.error e, draft)
        | (.ok (), draft) =>
          s.scanLoop follow fuel mode openedAt
            { state with draft := { draft with skipNewline := trimRight } }
      | (.unrecognized, state) =>
        (.error (s.errorAt here (.unrecognized (state.cursor.peek 40))), state.draft)

/-- The source of the target of a static include. -/
def included (s : Source) (target : Path) (text : List Char) : Source :=
  { text, workdir := target.parent?.getD s.rootdir, rootdir := s.rootdir, file := some target }

/-- Scans a source into a draft. `chain` holds the files that are being included, the innermost
first, and `depth` bounds the number of includes that may still be nested. -/
def scanInto (tree : FileTree) : Nat → List Path → Source → Draft → Outcome
  | depth, chain, s, draft =>
    s.scanLoop (fun name here draft =>
      match Path.resolveInclude name s.workdir s.rootdir with
      | .error e => (.error e, draft)
      | .ok target =>
        match depth with
        | 0 => (.error (s.errorAt here (.circular target)), draft)
        | depth + 1 =>
          if chain.any (·.same target) then (.error (s.errorAt here (.circular target)), draft)
          else
            match tree.readText target with
            | .error fault => (.error (s.errorAt here (.unreadable target fault)), draft)
            | .ok text =>
              let child := s.included target text
              (draft.flushText.touch target).withWorkdir child.workdir child.name
                (scanInto tree depth (target :: chain) child))
      s.text.length .text .start ⟨.start s.text, draft⟩

/-- Scans a source into a fresh draft, in its own directory. -/
def draft (tree : FileTree) (s : Source) : Outcome :=
  let start : Draft := (default : Draft).emit (.rootdir s.rootdir)
  let start := match s.file with
    | some file => start.touch file
    | none => start
  start.withWorkdir s.workdir s.name
    (scanInto tree (tree.files.length + 1) s.file.toList s)

/-- Compiles a source; `accepts` is the test of the evaluator that is to run the program. -/
def compile (accepts : String → Program → Except TemplateError Unit) (tree : FileTree)
    (s : Source) :
    Except TemplateError Compiled :=
  match s.draft tree with
  | (.error e, _) => .error e
  | (.ok (), draft) => do
    let (program, paths) := draft.finish
    accepts s.name program
    return ⟨s.name, program, paths⟩

/-- Whether a source compiles. -/
def wellformed (accepts : String → Program → Except TemplateError Unit) (tree : FileTree)
    (s : Source) : Bool :=
  match s.compile accepts tree with
  | .ok _ => true
  | .error _ => false

end Source

/-- The time of the newest modification among some files; none when there are no files. -/
def newestModification (tree : FileTree) : List Path → Except FileFault (Option Int)
  | [] => .ok none
  | path :: rest => do
    let modified ← tree.modified path
    match ← newestModification tree rest with
    | none => return some modified
    | some other => return some (max modified other)

end BracketTemplate
