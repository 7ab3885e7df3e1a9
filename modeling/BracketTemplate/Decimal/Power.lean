/-!
# Powers of the bases

Powers of two, in which doubles and machine words are measured, of ten, in which decimals are, and
of sixteen.
-/

namespace BracketTemplate

/-- Two to a power. -/
def twoTo (n : Nat) : Nat := Nat.pow 2 n

/-- Ten to a power. -/
def tenTo (n : Nat) : Nat := Nat.pow 10 n

/-- Sixteen to a power. -/
def sixteenTo (n : Nat) : Nat := Nat.pow 16 n

end BracketTemplate
