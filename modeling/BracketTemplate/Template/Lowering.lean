import BracketTemplate.Template.Instruction
import BracketTemplate.Text.WhiteSpace
import BracketTemplate.Decimal.Shortest

/-!
# From programs to scripts

The instructions of a program become one script. Statements are copied, expressions become the
argument of a call that prints them, and texts and directories appear only by the index of their
instruction: the script calls back with the index, and the host looks the instruction up. So no
literal text ever gets into the script.
-/

namespace BracketTemplate

namespace Program

/-- A call of a host function with the index of an instruction. -/
def indexCall (name : String) (index : Nat) : List Char :=
  name.toList ++ '(' :: Decimal.digitsOf index ++ [')', '\n']

/-- The argument that stands for the code of an expression: `nil` for blank code, the code on lines
of its own otherwise, so that a comment at its end does not reach further. -/
def argument (code : String) : List Char :=
  if isBlank code.toList then "nil".toList else '(' :: '\n' :: code.toList ++ ['\n', ')']

/-- The lines of one instruction at an index. -/
def lowerAt (index : Nat) : Instruction → List Char
  | .emit _ => indexCall "__text" index
  | .escaped code => "__print_escaped(".toList ++ argument code ++ [')', '\n']
  | .raw code => "__print_raw(".toList ++ argument code ++ [')', '\n']
  | .statement code => code.toList ++ ['\n']
  | .rootdir _ => indexCall "__rootdir" index
  | .workdir _ => indexCall "__workdir" index

/-- The lines of instructions that start at an index. -/
def lowerFrom : Nat → Program → List Char
  | _, [] => []
  | index, i :: rest => lowerAt index i ++ lowerFrom (index + 1) rest

/-- The script of a program. -/
def lower (program : Program) : List Char := lowerFrom 0 program

end Program

end BracketTemplate
