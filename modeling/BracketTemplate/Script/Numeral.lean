import BracketTemplate.Decimal.Binary64
import BracketTemplate.Text.Utf8

/-!
# Numerals

The one reading of numbers that the script language has, for numerals in its source and for texts
that are used as numbers alike. A numeral is decimal or, behind `0x`, hexadecimal; with neither a
point nor an exponent it is an integer. A decimal integer too large for 64 bits becomes a double, a
hexadecimal one wraps around. White space around a numeral does not count, and it may have a sign.
-/

namespace BracketTemplate.Script

/-- A number of the script language. -/
inductive Number where
  | int (i : Int64)
  | float (x : Float)
  deriving Repr

namespace Byte

/-- White space: blanks, tabs, line ends, and the two feeds. -/
def isSpace (b : UInt8) : Bool := b == 32 || (9 ≤ b && b ≤ 13)

/-- A decimal digit. -/
def isDigit (b : UInt8) : Bool := 48 ≤ b && b ≤ 57

/-- A letter. -/
def isAlpha (b : UInt8) : Bool := (65 ≤ b && b ≤ 90) || (97 ≤ b && b ≤ 122)

/-- A character that a name can start with. -/
def isNameStart (b : UInt8) : Bool := isAlpha b || b == 95

/-- A character that a name can go on with. -/
def isNamePart (b : UInt8) : Bool := isNameStart b || isDigit b

/-- The value of a hexadecimal digit. -/
def hexValue? (b : UInt8) : Option Nat :=
  if isDigit b then some (b.toNat - 48)
  else if 97 ≤ b && b ≤ 102 then some (b.toNat - 87)
  else if 65 ≤ b && b ≤ 70 then some (b.toNat - 55)
  else none

/-- A hexadecimal digit. -/
def isHexDigit (b : UInt8) : Bool := (hexValue? b).isSome

/-- A letter in lower case, any other byte as it is. -/
def toLower (b : UInt8) : UInt8 := if 65 ≤ b && b ≤ 90 then b + 32 else b

/-- A letter in upper case, any other byte as it is. -/
def toUpper (b : UInt8) : UInt8 := if 97 ≤ b && b ≤ 122 then b - 32 else b

end Byte

namespace Numeral

/-- The number that digits of a base stand for. -/
def ofDigits (base : Nat) (digits : Bytes) : Nat :=
  digits.foldl (fun n d => n * base + (Byte.hexValue? d).getD 0) 0

/-- Takes a sign off the front. -/
def sign : Bytes → Bool × Bytes
  | 45 :: rest => (true, rest)
  | 43 :: rest => (false, rest)
  | rest => (false, rest)

/-- Takes white space off both ends. -/
def trim (text : Bytes) : Bytes :=
  ((text.dropWhile Byte.isSpace).reverse.dropWhile Byte.isSpace).reverse

/-- The digits behind the front `0x`, if it is there. -/
def hexBody? : Bytes → Option Bytes
  | 48 :: x :: rest => if x == 120 || x == 88 then some rest else none
  | _ => none

/-- Splits digits, an optional point and more digits from what follows. -/
def mantissa (isDigit : UInt8 → Bool) (text : Bytes) : Bytes × Bytes × Bytes :=
  let whole := text.takeWhile isDigit
  match text.drop whole.length with
  | 46 :: rest =>
    let fraction := rest.takeWhile isDigit
    (whole, fraction, rest.drop fraction.length)
  | rest => (whole, [], rest)

/-- Reads an exponent behind its mark; nothing stands for no exponent. None when something else
stands there. -/
def exponent? (mark : UInt8) : Bytes → Option Int
  | [] => some 0
  | m :: rest =>
    if Byte.toLower m != mark then none
    else
      let (negative, digits) := sign rest
      if digits.isEmpty || !digits.all Byte.isDigit then none
      else
        -- More than six digits behind the zeros are out of the range of doubles in any case.
        let significant := digits.dropWhile (· == 48)
        let size := if 6 < significant.length then 1000000 else ofDigits 10 significant
        some (if negative then -(Int.ofNat size) else Int.ofNat size)

/-- Reads a double behind its sign. -/
def magnitude? (text : Bytes) : Option Float :=
  match hexBody? text with
  | some body =>
    let (whole, fraction, rest) := mantissa Byte.isHexDigit body
    if whole.isEmpty && fraction.isEmpty then none
    else
      (exponent? 112 rest).map fun e =>
        let digits := ofDigits 16 (whole ++ fraction)
        let scale := e - 4 * Int.ofNat fraction.length
        if digits == 0 then 0.0
        else if 5000 + 4 * Int.ofNat (whole.length + fraction.length) < scale.natAbs then
          (if 0 ≤ scale then 1.0 / 0.0 else 0.0)
        else Binary64.nearest (digits * twoTo scale.toNat) (twoTo (-scale).toNat)
  | none =>
    let (whole, fraction, rest) := mantissa Byte.isDigit text
    if whole.isEmpty && fraction.isEmpty then none
    else
      (exponent? 101 rest).map fun e =>
        Binary64.ofDecimal (ofDigits 10 (whole ++ fraction)) (e - Int.ofNat fraction.length)

/-- Reads an integer behind its sign. -/
def integer? (negative : Bool) (text : Bytes) : Option Int64 :=
  match hexBody? text with
  | some digits =>
    if digits.isEmpty || !digits.all Byte.isHexDigit then none
    else
      let n := Int64.ofNat (ofDigits 16 digits)
      some (if negative then -n else n)
  | none =>
    if text.isEmpty || !text.all Byte.isDigit then none
    else
      let n := ofDigits 10 text
      if negative && n ≤ twoTo 63 then some (Int64.ofInt (-(Int.ofNat n)))
      else if !negative && n < twoTo 63 then some (Int64.ofNat n)
      else none

/-- Reads a numeral. -/
def read? (text : Bytes) : Option Number :=
  let (negative, body) := sign (trim text)
  match integer? negative body with
  | some i => some (.int i)
  | none =>
    (magnitude? body).map fun x => .float (if negative then -x else x)

end Numeral

end BracketTemplate.Script
