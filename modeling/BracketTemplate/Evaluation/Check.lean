import BracketTemplate.Script.Chunk
import BracketTemplate.Template.Error
import BracketTemplate.Template.Lowering

/-!
# Checking programs

A program is accepted when the script it lowers to can be parsed. Nothing is run.
-/

namespace BracketTemplate

/-- How a report of a fault starts: what cannot be parsed is a syntax error, and what is nested too
deeply makes the parser itself fail. -/
def Script.ParseFault.report (shown : Bytes) (f : ParseFault) : String :=
  let wording := (f.wording shown).text
  match f with
  | .malformed _ => "syntax error: " ++ wording
  | .tooDeep => "runtime error: " ++ wording

/-- The chunk that a program lowers to. -/
def Program.chunk (name : String) (program : Program) : Except String Script.Chunk :=
  let shown := Script.Chunk.shownName (utf8 name)
  match Script.Chunk.load shown (Utf8.encode program.lower) with
  | .ok chunk => .ok chunk
  | .error f => .error (f.report shown)

/-- Accepts a program whose script can be parsed. -/
def Program.check (name : String) (program : Program) : Except TemplateError Unit :=
  match program.chunk name with
  | .ok _ => .ok ()
  | .error wording => .error (.eval name wording)

/-- Accepts every program. -/
def Program.acceptAll (_name : String) (_program : Program) : Except TemplateError Unit := .ok ()

end BracketTemplate
