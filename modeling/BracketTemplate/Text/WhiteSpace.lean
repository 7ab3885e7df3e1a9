/-!
# White space

The characters with the property `White_Space`, which is what both the delimiter grammar (padding
after a marker, padding around the name of an include) and the test for a blank print region mean
by white space.

The set is closed and small, so it is written as ranges. Note what it does not contain: the zero
width characters `U+200B` and `U+FEFF`, which a reader sees as blank and the grammar does not.
-/

namespace BracketTemplate

/-- The characters of the property `White_Space`. -/
def isWhiteSpace (c : Char) : Bool :=
  let n := c.toNat
  (0x09 ≤ n && n ≤ 0x0D) || n == 0x20 || n == 0x85 || n == 0xA0 || n == 0x1680 ||
    (0x2000 ≤ n && n ≤ 0x200A) || n == 0x2028 || n == 0x2029 || n == 0x202F || n == 0x205F ||
    n == 0x3000

/-- A text is blank when white space is all it holds. -/
def isBlank (text : List Char) : Bool := text.all isWhiteSpace

@[simp] theorem isBlank_nil : isBlank [] = true := rfl

theorem isBlank_append (s t : List Char) : isBlank (s ++ t) = (isBlank s && isBlank t) := by
  simp [isBlank]

end BracketTemplate
