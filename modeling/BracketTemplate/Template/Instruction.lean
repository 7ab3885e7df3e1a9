import BracketTemplate.Path.Basic

/-!
# Instructions

A template compiles to a sequence of instructions: literal text, code in its three forms, and the
directories that includes are resolved against. The code of an instruction is an opaque text; only
the evaluator of a template reads it.
-/

namespace BracketTemplate

/-- One step of a compiled template. -/
inductive Instruction where
  /-- Writes a text as it is. -/
  | emit (text : String)
  /-- Evaluates an expression and writes its text, escaped. -/
  | escaped (code : String)
  /-- Evaluates an expression and writes its text as it is. -/
  | raw (code : String)
  /-- Runs a statement. -/
  | statement (code : String)
  /-- Sets the root directory of the evaluation. -/
  | rootdir (path : Path)
  /-- Sets the current directory of the evaluation. -/
  | workdir (path : Path)
  deriving DecidableEq, Repr, Inhabited

/-- A compiled template is a sequence of instructions. -/
abbrev Program := List Instruction

/-- The kinds of bracketed regions, told apart by what follows the opening bracket. -/
inductive Region where
  /-- `[ … ]`, statements. -/
  | statement
  /-- `[= … ]`, an expression printed with escapes. -/
  | escaped
  /-- `[! … ]`, an expression printed as it is. -/
  | raw
  /-- `[# … ]`, a comment. -/
  | comment
  /-- `[< name]` or `[^ name]`, a static include. -/
  | staticInclude
  deriving DecidableEq, Repr, Inhabited

end BracketTemplate
