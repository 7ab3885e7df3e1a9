import BracketTemplate.Decimal.Shortest

/-!
# Doubles to a given precision

Three layouts of `m · 2 ^ e` that cut it off after so many digits: `fixed` keeps a number of places
behind the point, `scientific` a number of places behind the leading digit, and `general` a number
of digits altogether, in whichever of the two other layouts suits the size of the number. A half
goes to the even neighbour, and the exact value decides what is a half.

`hexadecimal` is exact unless it is asked for fewer digits than there are.
-/

namespace BracketTemplate.Decimal

/-- Digits filled up with zeros on the left. -/
def padLeft (width : Nat) (digits : List Char) : List Char :=
  zeros (width - digits.length) ++ digits

/-- Digits with a point so many places before their end; `keepPoint` writes one at the end too. -/
def withPoint (places : Nat) (keepPoint : Bool) (digits : List Char) : List Char :=
  if places == 0 then digits ++ (if keepPoint then ['.'] else [])
  else
    let digits := padLeft (places + 1) digits
    digits.take (digits.length - places) ++ '.' :: digits.drop (digits.length - places)

/-- A number with so many places behind the point. -/
def fixed (mantissa : Nat) (exponent : Int) (places : Nat) (keepPoint : Bool) : List Char :=
  let (numerator, denominator) := Binary64.quotient mantissa exponent (Int.ofNat places)
  withPoint places keepPoint (digitsOf (Binary64.roundHalfEven numerator denominator))

/-- The digits of a number, of which `places` stand behind the leading one, and the exponent of the
leading one. -/
def significant (mantissa : Nat) (exponent : Int) (places : Nat) : Nat × Int :=
  if mantissa == 0 then (0, 0)
  else
    let lead := Binary64.leadingExponent mantissa exponent
    let (numerator, denominator) := Binary64.quotient mantissa exponent (Int.ofNat places - lead)
    let digits := Binary64.roundHalfEven numerator denominator
    -- Rounding up may reach the next power of ten.
    if digits == tenTo (places + 1) then (tenTo places, lead + 1) else (digits, lead)

/-- An exponent with its sign and at least so many digits. -/
def exponentText (mark : Char) (width : Nat) (exponent : Int) : List Char :=
  mark :: (if exponent < 0 then '-' else '+') :: padLeft width (digitsOf exponent.natAbs)

/-- A number with so many places behind its leading digit. -/
def scientific (mantissa : Nat) (exponent : Int) (places : Nat) (keepPoint : Bool) : List Char :=
  let (digits, lead) := significant mantissa exponent places
  withPoint places keepPoint (padLeft (places + 1) (digitsOf digits)) ++ exponentText 'e' 2 lead

/-- Takes zeros and then a point off the end of digits that have a point. -/
def dropTrailingZeros (digits : List Char) : List Char :=
  if digits.contains '.' then
    let kept := digits.reverse.dropWhile (· = '0')
    (if kept.head? = some '.' then kept.drop 1 else kept).reverse
  else digits

/-- A number with so many digits, without zeros at the end unless they are to be kept. -/
def general (mantissa : Nat) (exponent : Int) (digits : Nat) (keepZeros : Bool) : List Char :=
  let precision := max digits 1
  let (shown, lead) := significant mantissa exponent (precision - 1)
  let trim (text : List Char) := if keepZeros then text else dropTrailingZeros text
  if -4 ≤ lead && lead < Int.ofNat precision then
    trim (fixed mantissa exponent (Int.ofNat precision - 1 - lead).toNat keepZeros)
  else
    trim (withPoint (precision - 1) keepZeros (padLeft precision (digitsOf shown))) ++
      exponentText 'e' 2 lead

/-- A number in base sixteen: its leading digit is `1`, or `0` below the normal numbers, and the
exponent is one of two. Without a number of places all digits are shown. -/
def hexadecimal (mantissa : Nat) (exponent : Int) (places : Option Nat) (keepPoint : Bool) :
    List Char :=
  let isNormal := twoTo 52 ≤ mantissa
  let fraction := mantissa % twoTo 52
  let power : Int := if mantissa == 0 then 0 else exponent + 52
  let (lead, digits) : Nat × List Char := match places with
    | none =>
      let all := padLeft 13 (Nat.toDigits 16 fraction)
      (if isNormal then 1 else 0, (all.reverse.dropWhile (· = '0')).reverse)
    | some n =>
      if 13 ≤ n then
        (if isNormal then 1 else 0,
          padLeft 13 (Nat.toDigits 16 fraction) ++ zeros (n - 13))
      else
        let rounded := Binary64.roundHalfEven mantissa (sixteenTo (13 - n))
        (rounded / sixteenTo n,
          if n == 0 then [] else padLeft n (Nat.toDigits 16 (rounded % sixteenTo n)))
  let point := if digits.isEmpty && !keepPoint then [] else ['.']
  '0' :: 'x' :: digitsOf lead ++ point ++ digits ++ exponentText 'p' 1 power

end BracketTemplate.Decimal
