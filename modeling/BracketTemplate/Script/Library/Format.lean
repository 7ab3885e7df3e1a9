import BracketTemplate.Script.Library.Argument

/-!
# Formatted text

The text that a format makes of some values. A format is text with conversions; a conversion starts
with a percent sign and has flags, a width, a precision and a letter. The letter tells what kind of
value it takes and how that is written, and which flags it admits.
-/

namespace BracketTemplate.Script

/-- A conversion of a format, with its spelling. -/
structure Conversion where
  spelling : Bytes
  left : Bool
  plus : Bool
  blank : Bool
  alternate : Bool
  zero : Bool
  width : Nat
  precision : Option Nat
  letter : UInt8
  deriving Repr, Inhabited

namespace Conversion

/-- A byte given by its character. -/
def byte (c : Char) : UInt8 := UInt8.ofNat c.toNat

/-- At most two digits at the front. -/
def twoDigits (text : Bytes) : Bytes := (text.take 2).takeWhile Byte.isDigit

/-- The flags that a letter admits, and whether it admits a precision. -/
def admits (letter : UInt8) : Bytes × Bool :=
  if letter == byte 'd' || letter == byte 'i' then (utf8 "-+0 ", true)
  else if letter == byte 'u' then (utf8 "-0", true)
  else if letter == byte 'o' || letter == byte 'x' || letter == byte 'X' then (utf8 "-#0", true)
  else if letter == byte 'c' || letter == byte 'p' then (utf8 "-", false)
  else if letter == byte 's' then (utf8 "-", true)
  else (utf8 "-+ #0", true)

/-- Reads the conversion whose flags, width, precision and letter have a spelling. None when the
letter does not admit the rest. -/
def ofSpelling? (spelling : Bytes) : Option Conversion :=
  let letter := (spelling.getLast?).getD 0
  let (flags, hasPrecision) := admits letter
  let given := spelling.takeWhile flags.contains
  let rest := spelling.drop given.length
  let (width, rest) : Bytes × Bytes :=
    if rest.head? == some 48 then ([], rest)
    else (twoDigits rest, rest.drop (twoDigits rest).length)
  let (precision, rest) : Option Bytes × Bytes :=
    match rest with
    | 46 :: behind =>
      if hasPrecision then (some (twoDigits behind), behind.drop (twoDigits behind).length)
      else (none, rest)
    | _ => (none, rest)
  if rest.length != 1 || !Byte.isAlpha letter then none
  else some
    { spelling, letter
      left := given.contains (byte '-')
      plus := given.contains (byte '+')
      blank := given.contains (byte ' ')
      alternate := given.contains (byte '#')
      zero := given.contains (byte '0')
      width := Numeral.ofDigits 10 width
      precision := precision.map (Numeral.ofDigits 10) }

/-! ## Layout -/

/-- So many times a byte. -/
def fill (n : Nat) (b : UInt8) : Bytes := List.replicate n b

/-- Brings a text to the width of a conversion. -/
def pad (c : Conversion) (text : Bytes) : Bytes :=
  let missing := c.width - text.length
  if c.left then text ++ fill missing 32 else fill missing 32 ++ text

/-- Brings a number to the width of a conversion; zeros go behind its sign. -/
def padNumber (c : Conversion) (zeros : Bool) (sign digits : Bytes) : Bytes :=
  if zeros && !c.left then
    sign ++ fill (c.width - sign.length - digits.length) 48 ++ digits
  else c.pad (sign ++ digits)

/-- The sign of a number. -/
def signText (c : Conversion) (negative : Bool) : Bytes :=
  if negative then [45] else if c.plus then [43] else if c.blank then [32] else []

/-- Letters in upper case. -/
def upper (text : Bytes) : Bytes := text.map Byte.toUpper

/-- Digits filled up to the precision of a conversion; zero with the precision `0` has none. -/
def precise (c : Conversion) (n : Nat) (digits : Bytes) : Bytes :=
  match c.precision with
  | none => digits
  | some p => if p == 0 && n == 0 then [] else fill (p - digits.length) 48 ++ digits

/-- An integer. -/
def integer (c : Conversion) (i : Int64) : Bytes :=
  let zeros := c.zero && c.precision.isNone
  let isUpper := c.letter == byte 'X'
  if c.letter == byte 'd' || c.letter == byte 'i' then
    let n := i.toInt.natAbs
    c.padNumber zeros (c.signText (i < 0)) (c.precise n (Utf8.encode (Decimal.digitsOf n)))
  else
    let n := i.toUInt64.toNat
    if c.letter == byte 'u' then
      c.padNumber zeros [] (c.precise n (Utf8.encode (Decimal.digitsOf n)))
    else if c.letter == byte 'o' then
      let digits := c.precise n (Utf8.encode (Nat.toDigits 8 n))
      let digits := if c.alternate && digits.head? != some 48 then 48 :: digits else digits
      c.padNumber zeros [] digits
    else
      let digits := c.precise n (Utf8.encode (Nat.toDigits 16 n))
      let front := if c.alternate && n != 0 then utf8 "0x" else []
      if isUpper then c.padNumber zeros (upper front) (upper digits)
      else c.padNumber zeros front digits

/-- The digits of a finite double. -/
def magnitude (c : Conversion) (mantissa : Nat) (exponent : Int) : List Char :=
  let letter := Byte.toLower c.letter
  let places := c.precision.getD 6
  if letter == byte 'f' then Decimal.fixed mantissa exponent places c.alternate
  else if letter == byte 'e' then Decimal.scientific mantissa exponent places c.alternate
  else if letter == byte 'g' then Decimal.general mantissa exponent places c.alternate
  else Decimal.hexadecimal mantissa exponent c.precision c.alternate

/-- A double. -/
def float (c : Conversion) (x : Float) : Bytes :=
  let isUpper := 65 ≤ c.letter && c.letter ≤ 90
  let shown (text : Bytes) := if isUpper then upper text else text
  match Binary64.ofFloat x with
  | .nan => c.padNumber false (c.signText (x.toBits.toNat / twoTo 63 == 1)) (shown (utf8 "nan"))
  | .infinite negative => c.padNumber false (c.signText negative) (shown (utf8 "inf"))
  | .finite negative m e =>
    let digits := shown (Utf8.encode (c.magnitude m e))
    if Byte.toLower c.letter == byte 'a' then
      c.padNumber c.zero (c.signText negative ++ digits.take 2) (digits.drop 2)
    else c.padNumber c.zero (c.signText negative) digits

end Conversion

namespace Format

/-- The part of a conversion behind its percent sign, up to its letter. -/
def spelling (format : Bytes) : Bytes :=
  let span := format.takeWhile fun b => (utf8 "-+ #0123456789.").contains b
  span ++ (format.drop span.length).take 1

/-- A text in quotes, as a script would write it. -/
def quote (text : Bytes) : Bytes := 34 :: go text ++ [34]
where
  go : Bytes → Bytes
    | [] => []
    | b :: rest =>
      if b == 34 || b == 92 || b == 10 then 92 :: b :: go rest
      else if b < 32 || b == 127 then
        let digits := Utf8.encode (Decimal.digitsOf b.toNat)
        let digits :=
          if rest.head?.any Byte.isDigit then Conversion.fill (3 - digits.length) 48 ++ digits
          else digits
        92 :: digits ++ go rest
      else b :: go rest

/-- A value as a script would write it; none when it has no such form. -/
def literal? : Val → Option Bytes
  | .str s => some (quote s)
  | .int i => some (if i == Int64.minValue then utf8 "0x8000000000000000" else Val.intText i)
  | .float x =>
    some <| match Binary64.ofFloat x with
      | .nan => utf8 "(0/0)"
      | .infinite negative => utf8 (if negative then "-1e9999" else "1e9999")
      | .finite negative m e =>
        (if negative then [45] else []) ++ Utf8.encode (Decimal.hexadecimal m e none false)
  | .nil => some (utf8 "nil")
  | .bool b => some (utf8 (if b then "true" else "false"))
  | _ => none

/-- Whether a letter takes an integer. -/
def takesInteger (letter : UInt8) : Bool := (utf8 "diuoxX").contains letter

/-- Whether a letter takes a double. -/
def takesFloat (letter : UInt8) : Bool := (utf8 "aAeEfgG").contains letter

/-- The conversion with a spelling, which its letter has to admit. -/
def conversion (a : Arguments) (shown : Bytes) : Act Conversion :=
  match Conversion.ofSpelling? shown with
  | some c => pure c
  | none => a.site.throw (utf8 "invalid conversion specification: '%" ++ shown ++ [39])

/-- The text of one argument in a conversion with a spelling. -/
def convert (a : Arguments) (n : Nat) (shown : Bytes) : Act Bytes := do
  let letter := (shown.getLast?).getD 0
  if letter == Conversion.byte 'c' then
    let c ← conversion a shown
    let i ← a.int n
    return c.pad [UInt8.ofNat (i.toInt % 256).toNat]
  else if takesInteger letter then
    let i ← a.int n
    let c ← conversion a shown
    return c.integer i
  else if takesFloat letter then
    let x ← a.float n
    let c ← conversion a shown
    return c.float x
  else if letter == Conversion.byte 'p' then
    let c ← conversion a shown
    let text := match a.get n with
      | .nil | .bool _ | .int _ | .float _ => utf8 "(null)"
      | .table id | .closure id | .native id | .thread id | .file id | .failure id =>
        Operation.addressText id
      | _ => Operation.addressText 0
    return c.pad text
  else if letter == Conversion.byte 'q' then
    if shown.length != 1 then a.site.throw (utf8 "specifier '%q' cannot have modifiers")
    else
      match literal? (a.get n) with
      | some text => return text
      | none => a.fail n (utf8 "value has no literal form")
  else if letter == Conversion.byte 's' then
    let text ← Operation.toText a.site (a.get n)
    if shown.length == 1 then return text
    else
      if text.contains 0 then a.fail n (utf8 "string contains zeros")
      let c ← conversion a shown
      if c.precision.isNone && 100 ≤ text.length then return text
      else return c.pad (match c.precision with
        | some p => text.take p
        | none => text)
  else a.site.throw (utf8 "invalid conversion '%" ++ shown ++ utf8 "' to 'format'")

/-- The text of a format and its arguments, from an argument on; `done` is the text so far,
backwards. -/
def run (a : Arguments) : Nat → Nat → Bytes → Bytes → Act Bytes
  | 0, _, done, _ => pure done.reverse
  | _ + 1, _, done, [] => pure done.reverse
  | fuel + 1, n, done, 37 :: rest =>
    match rest with
    | 37 :: rest => run a fuel n (37 :: done) rest
    | _ => do
      if a.count < n then a.fail n (utf8 "no value")
      let shown := spelling rest
      if 22 ≤ shown.length then a.site.throw (utf8 "invalid format string to 'format'")
      let text ← convert a n shown
      run a fuel (n + 1) (text.reverse ++ done) (rest.drop shown.length)
  | fuel + 1, n, done, b :: rest => run a fuel n (b :: done) rest

end Format

end BracketTemplate.Script
