import BracketTemplate.Text.Split

/-!
# Lines and positions

Diagnostics name a place by line and column and show the lines around it. `Position.after` counts
both, from `1`, over the text that lies before the place; `lines` splits a source for display.

The two agree on what ends a line, a line feed. They differ in what a carriage return before it is:
`lines` drops it from the line it shows, `Position.after` counts it as a character.
-/

namespace BracketTemplate

/-- A place in a source: line and column, both from `1`, columns counted in characters. -/
structure Position where
  line : Nat
  column : Nat
  deriving DecidableEq, Repr, Inhabited

namespace Position

/-- The place where a source starts. -/
def start : Position := ⟨1, 1⟩

/-- The place after one more character. -/
def advance (p : Position) (c : Char) : Position :=
  if c = '\n' then ⟨p.line + 1, 1⟩ else ⟨p.line, p.column + 1⟩

/-- The place that a text leads to from the start of a source. -/
def after (consumed : List Char) : Position := consumed.foldl advance start

@[simp] theorem after_nil : after [] = start := rfl

theorem after_append (s t : List Char) : after (s ++ t) = t.foldl advance (after s) := by
  simp [after]

end Position

/-- A line without the carriage return it may end in. -/
def dropCarriageReturn (line : List Char) : List Char :=
  if line.getLast? = some '\r' then line.dropLast else line

/-- The lines of a source without their ends. What follows the last line feed is a line of its own
unless it is empty, and only a line feed ends a line, so a carriage return at the very end stays. -/
def lines (source : List Char) : List (List Char) :=
  let pieces := splitAt '\n' source
  let closed := pieces.dropLast.map dropCarriageReturn
  match pieces.getLast? with
  | none | some [] => closed
  | some last => closed ++ [last]

end BracketTemplate
