import BracketTemplate.Text.Lines

/-!
# Cursors

A cursor stands somewhere in a source. It moves forward only, over as many characters as a caller
has recognised, and knows the line and column it stands at.
-/

namespace BracketTemplate

/-- A place in a source: what is still to be read, and the position reached. -/
structure Cursor where
  source : List Char
  rest : List Char
  position : Position
  deriving DecidableEq, Repr

namespace Cursor

/-- The start of a source. -/
def start (source : List Char) : Cursor := ⟨source, source, .start⟩

/-- Whether everything has been read. -/
def atEnd (c : Cursor) : Bool := c.rest.isEmpty

/-- The cursor so many characters further on. -/
def advance (c : Cursor) (count : Nat) : Cursor :=
  { c with
    rest := c.rest.drop count
    position := (c.rest.take count).foldl Position.advance c.position }

/-- At most so many of the characters ahead. -/
def peek (c : Cursor) (count : Nat) : List Char := c.rest.take count

/-- Whether a text stands ahead. -/
def startsWith (c : Cursor) (text : List Char) : Bool := text.isPrefixOf c.rest

/-- Moves over a text if it stands ahead. -/
def skip? (c : Cursor) (text : List Char) : Option Cursor :=
  if c.startsWith text then some (c.advance text.length) else none

/-- Moves over the longest run of characters of a class and tells the run. -/
def takeWhile (c : Cursor) (p : Char → Bool) : List Char × Cursor :=
  let run := c.rest.takeWhile p
  (run, c.advance run.length)

/-- Moves over one character and tells it. -/
def next? (c : Cursor) : Option (Char × Cursor) :=
  match c.rest with
  | [] => none
  | x :: _ => some (x, c.advance 1)

@[simp] theorem rest_advance (c : Cursor) (n : Nat) : (c.advance n).rest = c.rest.drop n := rfl

@[simp] theorem source_advance (c : Cursor) (n : Nat) : (c.advance n).source = c.source := rfl

@[simp] theorem advance_zero (c : Cursor) : c.advance 0 = c := by simp [advance]

/-- Moving twice is moving once. -/
theorem advance_advance (c : Cursor) (m n : Nat) :
    (c.advance m).advance n = c.advance (m + n) := by
  simp [advance, List.take_add, List.foldl_append]

end Cursor

end BracketTemplate
