import BracketTemplate.Decimal.Binary64

/-!
# Reload policies

When a cached page is looked at again, given by a number of seconds: never when there is none, at
every use when it is negative, whenever a file has changed when it is zero, and otherwise when a
file has changed and the last change is at least that long ago.
-/

namespace BracketTemplate

/-- When a cached page is compiled again. -/
inductive ReloadPolicy where
  | never
  | always
  /-- As soon as a file has changed. -/
  | immediate
  /-- When a file has changed and all files have been left alone for so many nanoseconds. -/
  | debounced (window : Nat)
  deriving DecidableEq, Repr, Inhabited

namespace ReloadPolicy

/-- The nanoseconds of a second. -/
def second : Nat := 1000000000

/-- The longest window. -/
def maxWindow : Nat := twoTo 64 * second - 1

/-- The window of so many seconds: nanoseconds are rounded to the nearest, a tie to the even one. -/
def windowOf (mantissa : Nat) (exponent : Int) : Nat :=
  let n := mantissa * second
  let window :=
    if 0 ≤ exponent then n * twoTo exponent.toNat
    else Binary64.roundHalfEven n (twoTo exponent.natAbs)
  min window maxWindow

/-- The policy for a reload time in seconds. -/
def ofReloadTime : Option Float → ReloadPolicy
  | none => never
  | some t =>
    match Binary64.ofFloat t with
    | .nan => never
    | .infinite negative => if negative then always else debounced maxWindow
    | .finite negative m e =>
      if m == 0 then immediate else if negative then always else debounced (windowOf m e)

end ReloadPolicy

end BracketTemplate
