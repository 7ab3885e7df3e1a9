import BracketTemplate.Files.Fault
import BracketTemplate.Script.Heap
import BracketTemplate.Value.Basic

/-!
# What a script asks of its host

A script computes on its heap and nothing else. Whatever else it wants (to write output, to look at
or change a binding, to include a page, to read a file) it asks for, and goes on with the answer. So
what a script can do to its surroundings is what the host does with the requests of this module.
-/

namespace BracketTemplate.Script

/-- The kinds of instructions that a script refers to by their index. -/
inductive InstructionKind where
  | text
  | rootdir
  | workdir
  deriving DecidableEq, Repr, Inhabited

/-- How a file is opened. Only for reading it may be a directory. -/
inductive OpenMode where
  /-- It has to be there. -/
  | read
  /-- It has to be there and can be written to. -/
  | update
  /-- It is made empty. -/
  | truncate
  /-- It is made if it is not there. -/
  | append
  deriving DecidableEq, Repr, Inhabited

/-- Where a process writes to. -/
inductive Channel where
  | output
  /-- The standard output, but not before the process ends. -/
  | outputAtEnd
  | error
  deriving DecidableEq, Repr, Inhabited

/-- A request to the host. -/
inductive Request where
  /-- Writes output, escaped unless `raw`. -/
  | write (raw : Bool) (text : String)
  /-- Carries out an instruction of the template. -/
  | instruction (kind : InstructionKind) (index : Nat)
  | includePage (name : String)
  | rootdir
  | workdir
  | binding (name : String)
  | bind (name : String) (value : Value)
  | invoke (name : String) (args : List Value)
  | openFile (path : Path) (mode : OpenMode)
  | readFile (path : Path)
  /-- Writes bytes to a file: at a place, or behind its end. -/
  | writeFile (path : Path) (position : Option Nat) (content : Bytes)
  /-- Writes to the standard output or the standard error of the process. -/
  | console (channel : Channel) (content : Bytes)
  /-- The time in nanoseconds. -/
  | now

/-- What a request is answered with: for an instruction, whether there is one of that kind; for a
binding that is made, the value it has then, or the report of an error. -/
def Request.Answer : Request → Type
  | write .. | includePage _ | console .. => Unit
  | instruction .. => Bool
  | rootdir | workdir => Option String
  | binding _ => Value
  | bind .. | invoke .. => Except String Value
  | openFile .. | writeFile .. => Except FileFault Unit
  | readFile _ => Except FileFault Bytes
  | now => Int

end BracketTemplate.Script
