import BracketTemplate.Decimal.Power

/-!
# Doubles as exact numbers

A finite double is `± m · 2 ^ e` for natural `m` and integer `e`. Everything the library writes
about a double (its shortest digits, its digits to a given precision, its remainder, its integer
part) is computed on that pair in exact arithmetic, so the results do not depend on how some machine
rounds an intermediate step.

`Binary64.ofFloat` reads the pair off the bits; `Binary64.toFloat` goes back for pairs that a double
can hold.
-/

namespace BracketTemplate

/-- A double taken apart. -/
inductive Binary64 where
  /-- Not a number. -/
  | nan
  /-- An infinity; `negative` tells which. -/
  | infinite (negative : Bool)
  /-- The number `± mantissa · 2 ^ exponent`; zero has mantissa `0`. -/
  | finite (negative : Bool) (mantissa : Nat) (exponent : Int)
  deriving DecidableEq, Repr

namespace Binary64

/-- Takes a double apart. -/
def ofFloat (x : Float) : Binary64 :=
  let bits := x.toBits.toNat
  let negative := bits / twoTo 63 == 1
  let biased := bits / twoTo 52 % twoTo 11
  let fraction := bits % twoTo 52
  if biased == 2047 then (if fraction == 0 then .infinite negative else .nan)
  else if biased == 0 then .finite negative fraction (-1074)
  else .finite negative (twoTo 52 + fraction) (Int.ofNat biased - 1075)

/-- The double `± mantissa · 2 ^ exponent`, which is exact where a double can hold the number. -/
def toFloat (negative : Bool) (mantissa : Nat) (exponent : Int) : Float :=
  let magnitude := (Float.ofNat mantissa).scaleB exponent
  if negative then -magnitude else magnitude

/-- The quotient of two naturals rounded to a natural, a half going to the even neighbour. -/
def roundHalfEven (numerator denominator : Nat) : Nat :=
  let quotient := numerator / denominator
  let rest := 2 * (numerator % denominator)
  if rest < denominator then quotient
  else if denominator < rest then quotient + 1
  else quotient + quotient % 2

/-- The number `mantissa · 2 ^ exponent · 10 ^ power` as a quotient of naturals. -/
def quotient (mantissa : Nat) (exponent power : Int) : Nat × Nat :=
  (mantissa * twoTo exponent.toNat * tenTo power.toNat,
    twoTo (-exponent).toNat * tenTo (-power).toNat)

/-- The double nearest to a quotient of naturals, a half going to the even neighbour; infinity when
the quotient is beyond the greatest double. -/
def nearest (numerator denominator : Nat) : Float :=
  if numerator == 0 then 0.0
  else
    let size : Int := Int.ofNat numerator.log2 - Int.ofNat denominator.log2
    -- The quotient lies between `2 ^ (size - 1)` and `2 ^ (size + 1)`.
    let reached := denominator * twoTo size.toNat ≤ numerator * twoTo (-size).toNat
    let lead := if reached then size else size - 1
    if 1024 ≤ lead then 1.0 / 0.0
    else
      let exponent := max (lead - 52) (-1074)
      let mantissa := roundHalfEven (numerator * twoTo (-exponent).toNat)
        (denominator * twoTo exponent.toNat)
      toFloat false mantissa exponent

/-- The double nearest to `digits · 10 ^ exponent`. Exponents so far out that the digits cannot
bring the number back into range are settled at once. -/
def ofDecimal (digits : Nat) (exponent : Int) : Float :=
  let length := Int.ofNat (Nat.log2 digits) / 3 + 1
  if digits == 0 || exponent + length < -400 then 0.0
  else if 400 < exponent then 1.0 / 0.0
  else nearest (digits * tenTo exponent.toNat) (tenTo (-exponent).toNat)

/-- The exponent of the leading decimal digit of `mantissa · 2 ^ exponent`, for a mantissa that is
not zero: the greatest `k` with `10 ^ k` at most the number. The logarithm to base two gives an
estimate that is never above it and at most two below. -/
def leadingExponent (mantissa : Nat) (exponent : Int) : Int :=
  let estimate := Int.fdiv ((Int.ofNat mantissa.log2 + exponent) * 30102) 100000 - 1
  let reaches (k : Int) : Bool :=
    let (numerator, denominator) := quotient mantissa exponent (-k)
    denominator ≤ numerator
  if reaches (estimate + 3) then estimate + 3
  else if reaches (estimate + 2) then estimate + 2
  else if reaches (estimate + 1) then estimate + 1
  else estimate

/-- The greatest integer that is at most the number, as a mantissa-free integer. -/
def floorInt (negative : Bool) (mantissa : Nat) (exponent : Int) : Int :=
  let magnitude := mantissa * twoTo exponent.toNat
  let unit := twoTo (-exponent).toNat
  if negative then Int.fdiv (-(Int.ofNat magnitude)) (Int.ofNat unit)
  else Int.ofNat (magnitude / unit)

/-- Whether the number is an integer. -/
def isIntegral (mantissa : Nat) (exponent : Int) : Bool :=
  mantissa % twoTo (-exponent).toNat == 0

/-- The integer that a double is equal to, if there is one. -/
def exactInt? (x : Float) : Option Int :=
  match ofFloat x with
  | .finite negative mantissa exponent =>
    if isIntegral mantissa exponent then
      some (floorInt negative mantissa exponent)
    else none
  | _ => none

/-- The greatest integer at most a finite double. -/
def floorInt? (x : Float) : Option Int :=
  match ofFloat x with
  | .finite negative mantissa exponent => some (floorInt negative mantissa exponent)
  | _ => none

/-- The remainder of the division of two doubles that truncates, exact, with the sign of the
dividend. An infinite dividend or a zero divisor have none; an infinite divisor leaves the
dividend. -/
def truncatedRemainder (x y : Float) : Float :=
  match ofFloat x, ofFloat y with
  | .finite negative m e, .finite _ n f =>
    if n == 0 then 0.0 / 0.0
    else
      let common := min e f
      let remainder := (m * twoTo (e - common).toNat) % (n * twoTo (f - common).toNat)
      toFloat negative remainder common
  | .finite .., .infinite _ => x
  | _, _ => 0.0 / 0.0

end Binary64

end BracketTemplate
