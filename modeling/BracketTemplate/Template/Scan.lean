import BracketTemplate.Template.Cursor
import BracketTemplate.Template.Delimiter
import BracketTemplate.Template.Draft

/-!
# Scanning

A source is read in two modes. In *text* mode everything is literal but opening brackets and the
backslash before a bracket; in *code* mode brackets nest, and the closing bracket that matches the
opening one ends the region. `Mode.scan` takes one step from a cursor: it writes what it recognises
into the draft and tells whether the mode stays, changes, or a static include has been met, which it
leaves to its caller.

In code, a run of backslashes stands for half as many. A run of odd length also takes the character
behind it: a bracket stands for itself and does not nest, any other character keeps one backslash. A
dash stands for itself unless it is followed by the closing bracket of the region.
-/

namespace BracketTemplate

/-- How a source is being read. -/
inductive Mode where
  | text
  | code
  deriving DecidableEq, Repr, Inhabited

/-- What a step of scanning leads to. -/
inductive Step where
  | proceed
  | switch (mode : Mode)
  /-- A static include, which the caller follows. -/
  | includes (name : List Char) (trimRight : Bool)
  /-- No rule applies. -/
  | unrecognized
  deriving DecidableEq, Repr

namespace Scan

/-- The state of scanning: where it stands and what it has written. -/
structure State where
  cursor : Cursor
  draft : Draft
  deriving DecidableEq, Repr

/-- Moves on and writes. -/
def State.write (s : State) (count : Nat) (f : Draft → Draft) : State :=
  ⟨s.cursor.advance count, f s.draft⟩

/-- Opens the region of an opening bracket. -/
def openRegion (opening : Delimiter.Opening) (d : Draft) : Draft :=
  (if opening.trim then d.trimTextEnd else d).openRegion opening.region

/-- One step in text mode, once the end of a trimmed line is out of the way. -/
def textStep (s : State) : Step × State :=
  let rest := s.cursor.rest
  if ['\\', '['].isPrefixOf rest then (.proceed, s.write 2 (·.pushText ['[']))
  else if ['\\', ']'].isPrefixOf rest then (.proceed, s.write 2 (·.pushText [']']))
  else
    match Delimiter.include? rest with
    | some d =>
      (.includes d.name d.trimRight,
        s.write d.length fun draft => if d.trimLeft then draft.trimTextEnd else draft)
    | none =>
      match Delimiter.marked? rest with
      | some d => (.switch .code, s.write d.length (openRegion d))
      | none =>
        match Delimiter.open? rest with
        | some d => (.switch .code, s.write d.length (openRegion d))
        | none =>
          if [']'].isPrefixOf rest then (.proceed, s.write 1 (·.pushText [']']))
          else
            let run := rest.takeWhile Delimiter.isText
            if !run.isEmpty then (.proceed, s.write run.length (·.pushText run))
            else if ['\\'].isPrefixOf rest then (.proceed, s.write 1 (·.pushText ['\\']))
            else (.unrecognized, s)

/-- One step in text mode. A trimmed line end is dropped first, together with the blanks before
it. -/
def text (s : State) : Step × State :=
  if s.draft.skipNewline then
    let s : State :=
      ⟨s.cursor.advance ((Delimiter.lineEnd? s.cursor.rest).getD 0),
        { s.draft with skipNewline := false }⟩
    if s.cursor.atEnd then (.proceed, s) else textStep s
  else textStep s

/-- The code that a run of backslashes and the character behind it stand for, and how many
characters they take. -/
def backslashes (rest : List Char) : List Char × Nat :=
  let run := (rest.takeWhile (· = '\\')).length
  let half := List.replicate (run / 2) '\\'
  if run % 2 = 0 then (half, run)
  else
    match rest.drop run with
    | [] => (half ++ ['\\'], run)
    | c :: _ => if c = '[' || c = ']' then (half ++ [c], run + 1) else (half ++ ['\\', c], run + 1)

/-- Closes the region. -/
def closeRegion (trim : Bool) (d : Draft) : Draft := { d.closeRegion with skipNewline := trim }

/-- One step in code mode that does not close the region. -/
def codeStep (s : State) : Step × State :=
  let rest := s.cursor.rest
  if ['\\'].isPrefixOf rest then
    let (code, count) := backslashes rest
    (.proceed, s.write count (·.pushCode code))
  else if ['['].isPrefixOf rest then
    (.proceed, s.write 1 fun d => { d with opened := d.opened + 1 }.pushCode ['['])
  else if [']'].isPrefixOf rest then
    (.proceed, s.write 1 fun d => { d with opened := d.opened - 1 }.pushCode [']'])
  else
    let run := rest.takeWhile Delimiter.isCode
    if !run.isEmpty then (.proceed, s.write run.length (·.pushCode run))
    else if ['-'].isPrefixOf rest then (.proceed, s.write 1 (·.pushCode ['-']))
    else (.unrecognized, s)

/-- One step in code mode. -/
def code (s : State) : Step × State :=
  let rest := s.cursor.rest
  if s.draft.opened = 0 && ['-', ']'].isPrefixOf rest then
    (.switch .text, s.write 2 (closeRegion true))
  else if s.draft.opened = 0 && [']'].isPrefixOf rest then
    (.switch .text, s.write 1 (closeRegion false))
  else codeStep s

end Scan

/-- One step of scanning. -/
def Mode.scan : Mode → Scan.State → Step × Scan.State
  | .text => Scan.text
  | .code => Scan.code

end BracketTemplate
