import BracketTemplate.Script.Parser

/-!
# Chunks

A chunk is a script under the name that reports give it. Reports show at most `59` bytes of the
name.
-/

namespace BracketTemplate.Script

/-- A script that has been parsed, with the name that reports show. -/
structure Chunk where
  name : Bytes
  proto : Proto
  deriving Inhabited

/-- The name that reports show of a chunk. -/
def Chunk.shownName (name : Bytes) : Bytes := name.take 59

/-- How a report names a line of a chunk, in front of what it says. -/
def Chunk.position (shown : Bytes) (line : Nat) : Bytes :=
  shown ++ utf8 s!":{line}: "

/-- The wording of a fault in a chunk. -/
def ParseFault.wording (shown : Bytes) : ParseFault → Bytes
  | .malformed f => Chunk.position shown f.line ++ f.wording
  | .tooDeep => utf8 "C stack overflow"

/-- Parses a script under the name that reports show of it. -/
def Chunk.load (shown script : Bytes) : Except ParseFault Chunk := do
  return ⟨shown, ← Parser.ofScript script⟩

end BracketTemplate.Script
