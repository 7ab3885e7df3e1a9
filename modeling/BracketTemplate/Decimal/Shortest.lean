import BracketTemplate.Decimal.Binary64

/-!
# The fewest digits that read back

A double is written with as few decimal digits as tell it apart from every other double, and of the
decimals of that length with the one nearest to it.

All reals in a certain interval around a double round to it, the ends included exactly when its
mantissa is even. For each number of digits from `1` on, `shortest` looks at the two neighbours of
the double among the decimals with that many digits; the first length at which one of them lies in
the interval wins. Seventeen digits always suffice.
-/

namespace BracketTemplate.Decimal

/-- A decimal number `digits · 10 ^ exponent`. -/
structure Scientific where
  digits : Nat
  exponent : Int
  deriving DecidableEq, Repr

/-- Takes factors of ten off the digits; `fuel` bounds their number. -/
def Scientific.dropZeros : Nat → Scientific → Scientific
  | 0, s => s
  | fuel + 1, s =>
    if s.digits % 10 == 0 && s.digits != 0 then dropZeros fuel ⟨s.digits / 10, s.exponent + 1⟩
    else s

/-- The interval of reals that round to `mantissa · 2 ^ exponent`, in quarters of a unit in the last
place: below the power of two that is the least mantissa of a normal number, the doubles lie twice
as close. -/
def roundingInterval (mantissa : Nat) (exponent : Int) : Nat × Nat :=
  let below := if mantissa == twoTo 52 && exponent != -1074 then 1 else 2
  (4 * mantissa - below, 4 * mantissa + 2)

/-- The shortest decimal with the leading digit at `10 ^ lead` and at least `17 - fuel` digits. -/
def shortestFrom (mantissa : Nat) (exponent lead : Int) : Nat → Scientific
  | 0 =>
    let unit := lead - 16
    let (numerator, denominator) := Binary64.quotient mantissa exponent (-unit)
    ⟨Binary64.roundHalfEven numerator denominator, unit⟩
  | fuel + 1 =>
    let unit := lead - (16 - Int.ofNat fuel) + 1
    let (low, high) := roundingInterval mantissa exponent
    -- A multiple `q` of the unit is compared in quarters: `q · 10 ^ unit` with `bound · 2 ^ (e -
    -- 2)`.
    let (scale, step) := Binary64.quotient 1 (exponent - 2) (-unit)
    let inside (q : Nat) : Bool :=
      if mantissa % 2 == 0 then low * scale ≤ q * step && q * step ≤ high * scale
      else low * scale < q * step && q * step < high * scale
    let value := 4 * mantissa * scale
    let down := value / step
    let up := down + 1
    match inside down, inside up with
    | true, true =>
      let nearer :=
        if 2 * value < (down + up) * step then down
        else if (down + up) * step < 2 * value then up
        else down + down % 2
      ⟨nearer, unit⟩
    | true, false => ⟨down, unit⟩
    | false, true => ⟨up, unit⟩
    | false, false => shortestFrom mantissa exponent lead fuel

/-- The shortest decimal that rounds to `mantissa · 2 ^ exponent`, without trailing zeros. -/
def shortest (mantissa : Nat) (exponent : Int) : Scientific :=
  if mantissa == 0 then ⟨0, 0⟩
  else
    let lead := Binary64.leadingExponent mantissa exponent
    Scientific.dropZeros 20 (shortestFrom mantissa exponent lead 16)

/-- The digits of a natural number. -/
def digitsOf (n : Nat) : List Char := Nat.toDigits 10 n

/-- So many zeros. -/
def zeros (n : Nat) : List Char := List.replicate n '0'

/-- A decimal in positional notation, without a point when it is an integer. -/
def Scientific.positional (s : Scientific) : List Char :=
  let digits := digitsOf s.digits
  if 0 ≤ s.exponent then
    if s.digits == 0 then ['0'] else digits ++ zeros s.exponent.toNat
  else
    let places := (-s.exponent).toNat
    if places < digits.length then
      digits.take (digits.length - places) ++ '.' :: digits.drop (digits.length - places)
    else '0' :: '.' :: zeros (places - digits.length) ++ digits

/-- The exponent of the leading digit. -/
def Scientific.lead (s : Scientific) : Int :=
  s.exponent + Int.ofNat (digitsOf s.digits).length - 1

end BracketTemplate.Decimal
