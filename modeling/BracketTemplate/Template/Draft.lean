import BracketTemplate.Template.Error
import BracketTemplate.Template.Instruction
import BracketTemplate.Text.WhiteSpace

/-!
# Drafts

A draft is a program in the making. All files that a compile passes through write into one draft:
the literal text that is not yet an instruction, the code of the region that is open, the
instructions so far, the files touched, and the stack of directories.

Three laws keep the pieces apart. Text is one string, whatever pieces it came in, and becomes an
instruction only when something else is to follow it. The text of a comment is dropped as it comes.
And a directory that is entered with `withWorkdir` is left again, however the work in it ends.
-/

namespace BracketTemplate

/-- A program in the making. -/
structure Draft where
  /-- How many brackets are open inside the code region. -/
  opened : Nat := 0
  /-- The region that was opened last, while it is open. -/
  lastOpen : Option Region := none
  /-- Whether the rest of the line is to be dropped before the next text. -/
  skipNewline : Bool := false
  /-- Literal text that is not yet an instruction. -/
  pending : List Char := []
  /-- Code of the open region. -/
  code : List Char := []
  /-- The instructions so far. -/
  program : Program := []
  /-- The files that the program depends on, in the order of their first use. -/
  touched : List Path := []
  /-- The directories entered and not left, the innermost first. -/
  directories : List Path := []
  deriving DecidableEq, Repr, Inhabited

namespace Draft

/-- A text without the blanks and tabs it ends in. -/
def dropBlanks (text : List Char) : List Char :=
  (text.reverse.dropWhile fun c => c = ' ' || c = '\t').reverse

/-- Adds literal text. -/
def pushText (d : Draft) (text : List Char) : Draft := { d with pending := d.pending ++ text }

/-- Takes the blanks and tabs off the end of the pending text. -/
def trimTextEnd (d : Draft) : Draft := { d with pending := dropBlanks d.pending }

/-- Adds an instruction. -/
def emit (d : Draft) (i : Instruction) : Draft := { d with program := d.program ++ [i] }

/-- Makes an instruction of the pending text, if there is any. -/
def flushText (d : Draft) : Draft :=
  if d.pending = [] then d
  else { d with pending := [], program := d.program ++ [.emit (String.ofList d.pending)] }

/-- Opens a region. -/
def openRegion (d : Draft) (region : Region) : Draft :=
  { d.flushText with lastOpen := some region, code := [] }

/-- Adds code; the text of a comment is dropped. -/
def pushCode (d : Draft) (code : List Char) : Draft :=
  if d.lastOpen = some .comment then d else { d with code := d.code ++ code }

/-- Closes the open region and makes an instruction of its code. -/
def closeRegion (d : Draft) : Draft :=
  let code := String.ofList d.code
  let d' := { d with code := [], lastOpen := none }
  match d.lastOpen with
  | some .escaped => d'.emit (.escaped code)
  | some .raw => d'.emit (.raw code)
  | some .comment | some .staticInclude => d'
  | some .statement | none => d'.emit (.statement code)

/-- Whether the program depends on a file already. -/
def hasTouched (d : Draft) (path : Path) : Bool := d.touched.any (·.same path)

/-- Notes that the program depends on a file. -/
def touch (d : Draft) (path : Path) : Draft :=
  if d.hasTouched path then d else { d with touched := d.touched ++ [path] }

/-! ## Directories -/

/-- The directory entered last. -/
def topWorkdir (d : Draft) : Option Path := d.directories.head?

/-- Enters a directory. -/
def pushWorkdir (d : Draft) (dir : Path) : Draft :=
  { d with directories := dir :: d.directories, program := d.program ++ [.workdir dir] }

/-- Leaves the directory entered last and tells the evaluation which one it is back in. -/
def popWorkdir (d : Draft) (file : String) : Except TemplateError Unit × Draft :=
  match d.directories with
  | [] => (.error (.compileBare file .noDirectory), d)
  | _ :: rest =>
    let d := { d with directories := rest }
    match rest with
    | [] => (.ok (), d)
    | top :: _ => (.ok (), d.emit (.workdir top))

/-- Does some work in a directory. Directories that the work has entered and not left are left with
it. An error of the work goes before one of leaving. -/
def withWorkdir {α : Type} (d : Draft) (dir : Path) (file : String)
    (work : Draft → Except TemplateError α × Draft) : Except TemplateError α × Draft :=
  let depth := d.directories.length
  let (result, d) := work (d.pushWorkdir dir)
  let d := { d with directories := d.directories.drop (d.directories.length - (depth + 1)) }
  let (left, d) := d.popWorkdir file
  match result, left with
  | .ok value, .ok () => (.ok value, d)
  | .error e, _ => (.error e, d)
  | _, .error e => (.error e, d)

/-- The finished program, with the files it depends on. -/
def finish (d : Draft) : Program × List Path := (d.flushText.program, d.touched)

/-! ## Pending text is one string -/

@[simp] theorem pushText_pushText (d : Draft) (s t : List Char) :
    (d.pushText s).pushText t = d.pushText (s ++ t) := by simp [pushText]

@[simp] theorem pushText_nil (d : Draft) : d.pushText [] = d := by simp [pushText]

@[simp] theorem pending_flushText (d : Draft) : d.flushText.pending = [] := by
  simp only [flushText]
  split <;> simp_all

@[simp] theorem flushText_flushText (d : Draft) : d.flushText.flushText = d.flushText := by
  rw [flushText, if_pos d.pending_flushText]

@[simp] theorem directories_flushText (d : Draft) : d.flushText.directories = d.directories := by
  simp only [flushText]
  split <;> rfl

end Draft

end BracketTemplate
