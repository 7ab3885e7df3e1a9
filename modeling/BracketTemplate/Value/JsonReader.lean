import BracketTemplate.Text.Lines
import BracketTemplate.Text.Utf8
import BracketTemplate.Value.Basic

/-!
# Reading JSON text

`Value.ofJson?` reads exactly one JSON value with optional white space around it and otherwise says
what is wrong and where. `Value.parseLenient` is the reading that the command line uses for the
value of a variable: what is not JSON stands for itself as a text.

Integers that fit 64 bits become integers, all other numbers doubles, and so does `-0`. A number
with a point or an exponent is the product or quotient of its digits, as a double, and a power of
ten, so the last bit of a long number may differ from the nearest double; a number beyond the
greatest double is refused. A key that is written twice keeps its first place and its last value.
Lists and maps nest at most 127 deep.

Positions are a line and the number of bytes before the place in that line. An error found by
looking at a byte counts that byte, one found after taking a byte counts it as taken, so both end up
just behind the byte in question.
-/

namespace BracketTemplate

/-- What can be wrong with JSON text. -/
inductive JsonFault where
  | endInList | endInMap | endInString | endInValue
  | expectedColon | expectedListEnd | expectedMapEnd | expectedWord | expectedValue
  | invalidEscape | invalidNumber | numberOutOfRange | controlCharacter | keyMustBeString
  | loneSurrogate | unpairedEscape | trailingComma | trailingCharacters | nestedTooDeep
  deriving DecidableEq, Repr

/-- The wording of a fault. -/
def JsonFault.message : JsonFault → String
  | endInList => "EOF while parsing a list"
  | endInMap => "EOF while parsing an object"
  | endInString => "EOF while parsing a string"
  | endInValue => "EOF while parsing a value"
  | expectedColon => "expected `:`"
  | expectedListEnd => "expected `,` or `]`"
  | expectedMapEnd => "expected `,` or `\x7d`"
  | expectedWord => "expected ident"
  | expectedValue => "expected value"
  | invalidEscape => "invalid escape"
  | invalidNumber => "invalid number"
  | numberOutOfRange => "number out of range"
  | controlCharacter => "control character (\\u0000-\\u001F) found while parsing a string"
  | keyMustBeString => "key must be a string"
  | loneSurrogate => "lone leading surrogate in hex escape"
  | unpairedEscape => "unexpected end of hex escape"
  | trailingComma => "trailing comma"
  | trailingCharacters => "trailing characters"
  | nestedTooDeep => "recursion limit exceeded"

namespace JsonReader

/-- What is still to be read, with the number of bytes before it. -/
structure Input where
  rest : List Char
  offset : Nat
  deriving DecidableEq, Repr

/-- A fault and the number of bytes before its place. -/
structure Error where
  fault : JsonFault
  offset : Nat
  deriving DecidableEq, Repr

/-- The input after one more character. -/
def Input.skip (input : Input) : Input :=
  match input.rest with
  | [] => input
  | c :: rest => ⟨rest, input.offset + c.utf8Size⟩

/-- A fault just behind the next byte, or at the end. -/
def fail {α : Type} (fault : JsonFault) (input : Input) : Except Error α :=
  .error ⟨fault, if input.rest.isEmpty then input.offset else input.offset + 1⟩

/-- A fault at the place reached. -/
def failHere {α : Type} (fault : JsonFault) (input : Input) : Except Error α :=
  .error ⟨fault, input.offset⟩

/-- The blanks of JSON text. -/
def isSpace (c : Char) : Bool := c = ' ' || c = '\n' || c = '\t' || c = '\r'

/-- The input after blanks, which are one byte each. -/
def skipSpaces (input : Input) : Input :=
  let blanks := input.rest.takeWhile isSpace
  ⟨input.rest.drop blanks.length, input.offset + blanks.length⟩

/-! ## Words and numbers -/

/-- Takes the rest of a word. -/
def word : List Char → Input → Except Error Input
  | [], input => .ok input
  | expected :: more, input =>
    match input.rest with
    | [] => failHere .endInValue input
    | c :: _ => if c = expected then word more input.skip else fail .expectedWord input

/-- The digits at the front. -/
def digitsOf (input : Input) : List Char := input.rest.takeWhile Char.isDigit

/-- The input after that many digits. -/
def Input.after (input : Input) (count : Nat) : Input :=
  ⟨input.rest.drop count, input.offset + count⟩

/-- Adds digits to a number as long as it stays below `2 ^ 64`; gives the number and how many digits
went into it. -/
def accumulate : Nat → Nat → List Char → Nat × Nat
  | number, taken, [] => (number, taken)
  | number, taken, d :: rest =>
    let next := number * 10 + (d.toNat - '0'.toNat)
    if next < twoTo 64 then accumulate next (taken + 1) rest else (number, taken)

/-- A power of ten as a double. -/
def powerOfTen (k : Nat) : Float := Float.ofScientific 1 false k

/-- Scales a double by a power of ten that may be beyond the range of doubles, in steps of `308`;
none when the result is too large. `fuel` bounds the number of steps. -/
def scale : Nat → Float → Int → Option Float
  | 0, x, _ => some x
  | fuel + 1, x, exponent =>
    if exponent.natAbs ≤ 308 then
      if 0 ≤ exponent then
        let y := x * powerOfTen exponent.natAbs
        if y.isInf then none else some y
      else some (x / powerOfTen exponent.natAbs)
    else if x == 0.0 then some x
    else if 0 ≤ exponent then none
    else scale fuel (x / powerOfTen 308) (exponent + 308)

/-- The double `significand · 10 ^ exponent`, read up to `input`. -/
def double (negative : Bool) (significand : Nat) (exponent : Int) (input : Input) :
    Except Error (Value × Input) :=
  match scale (exponent.natAbs / 308 + 2) (Float.ofNat significand) exponent with
  | none => failHere .numberOutOfRange input
  | some x => .ok (.float (if negative then -x else x), input)

/-- Reads the exponent behind an `e`. An exponent beyond 32 bits makes the number zero or too
large. -/
def exponentPart (negative : Bool) (significand : Nat) (exponent : Int) (input : Input) :
    Except Error (Value × Input) :=
  let input := input.skip
  let (down, input) := match input.rest with
    | '+' :: _ => (false, input.skip)
    | '-' :: _ => (true, input.skip)
    | _ => (false, input)
  match input.rest with
  | [] => failHere .endInValue input
  | d :: _ =>
    if !d.isDigit then fail .invalidNumber input
    else
      let digits := digitsOf input
      let fits := digits.foldl (fun (n, k) d =>
        let next := n * 10 + (d.toNat - '0'.toNat)
        if n < twoTo 31 && next < twoTo 31 then (next, k + 1) else (twoTo 31, k)) (0, 0)
      if fits.1 < twoTo 31 then
        let shift := Int.ofNat fits.1
        double negative significand (if down then exponent - shift else exponent + shift)
          (input.after digits.length)
      else if significand != 0 && !down then
        failHere .numberOutOfRange (input.after (fits.2 + 1))
      else .ok (.float (if negative then -0.0 else 0.0), input.after digits.length)

/-- What follows the digits of a number that is a double. -/
def doubleEnd (negative : Bool) (significand : Nat) (exponent : Int) (input : Input) :
    Except Error (Value × Input) :=
  match input.rest with
  | 'e' :: _ | 'E' :: _ => exponentPart negative significand exponent input
  | _ => double negative significand exponent input

/-- Reads the digits behind a point. Digits beyond `2 ^ 64` are passed over. -/
def fractionPart (negative : Bool) (significand : Nat) (exponent : Int) (input : Input) :
    Except Error (Value × Input) :=
  let input := input.skip
  let digits := digitsOf input
  if digits.isEmpty then
    if input.rest.isEmpty then fail .endInValue input else fail .invalidNumber input
  else
    let (significand, taken) := accumulate significand 0 digits
    doubleEnd negative significand (exponent - Int.ofNat taken) (input.after digits.length)

/-- Reads a number behind its sign. -/
def number (negative : Bool) (input : Input) : Except Error (Value × Input) :=
  match input.rest with
  | [] => failHere .endInValue input
  | d :: _ =>
    if !d.isDigit then fail .invalidNumber input
    else
      let digits := digitsOf input
      if d = '0' && digits.length != 1 then fail .invalidNumber input.skip
      else
        let (significand, taken) := accumulate 0 0 digits
        let input := input.after digits.length
        let dropped := Int.ofNat (digits.length - taken)
        match input.rest with
        | '.' :: _ => fractionPart negative significand dropped input
        | 'e' :: _ | 'E' :: _ => exponentPart negative significand dropped input
        | _ =>
          if taken != digits.length then double negative significand dropped input
          else if negative then
            if significand == 0 || twoTo 63 < significand then
              .ok (.float (-(Float.ofNat significand)), input)
            else .ok (.int (Int64.ofInt (-(Int.ofNat significand))), input)
          else if significand < twoTo 63 then .ok (.int (Int64.ofNat significand), input)
          else .ok (.float (Float.ofNat significand), input)

/-! ## Texts -/

/-- The value of a hexadecimal digit. -/
def hexDigit? (c : Char) : Option Nat :=
  if c.isDigit then some (c.toNat - '0'.toNat)
  else if 'a' ≤ c && c ≤ 'f' then some (c.toNat - 'a'.toNat + 10)
  else if 'A' ≤ c && c ≤ 'F' then some (c.toNat - 'A'.toNat + 10)
  else none

/-- Reads four hexadecimal digits. -/
def hexEscape (input : Input) : Except Error (Nat × Input) :=
  if Utf8.size (input.rest.take 4) < 4 then
    .error ⟨.endInString, input.offset + Utf8.size input.rest⟩
  else
    match (input.rest.take 4).mapM hexDigit? with
    | some [a, b, c, d] => .ok (((a * 16 + b) * 16 + c) * 16 + d, input.after 4)
    | _ => .error ⟨.invalidEscape, input.offset + 4⟩

/-- Reads the character of a `u` escape, which takes two escapes beyond the basic plane. -/
def unicodeEscape (input : Input) : Except Error (Char × Input) := do
  let (high, input) ← hexEscape input
  if 0xDC00 ≤ high && high ≤ 0xDFFF then failHere .loneSurrogate input
  else if high < 0xD800 || 0xDBFF < high then return (Char.ofNat high, input)
  else
    match input.rest with
    | [] => failHere .endInString input
    | '\\' :: _ =>
      let input := input.skip
      match input.rest with
      | [] => failHere .endInString input
      | 'u' :: _ =>
        let (low, input) ← hexEscape input.skip
        if low < 0xDC00 || 0xDFFF < low then failHere .loneSurrogate input
        else return (Char.ofNat ((high - 0xD800) * 0x400 + (low - 0xDC00) + 0x10000), input)
      | _ => fail .unpairedEscape input
    | _ => fail .unpairedEscape input

/-- Reads the character of an escape behind its backslash. -/
def escape (input : Input) : Except Error (Char × Input) :=
  match input.rest with
  | [] => failHere .endInString input
  | '"' :: _ => .ok ('"', input.skip)
  | '\\' :: _ => .ok ('\\', input.skip)
  | '/' :: _ => .ok ('/', input.skip)
  | 'b' :: _ => .ok ('\x08', input.skip)
  | 'f' :: _ => .ok ('\x0c', input.skip)
  | 'n' :: _ => .ok ('\n', input.skip)
  | 'r' :: _ => .ok ('\r', input.skip)
  | 't' :: _ => .ok ('\t', input.skip)
  | 'u' :: _ => unicodeEscape input.skip
  | _ => fail .invalidEscape input

/-- Reads a text behind its opening quote; `fuel` bounds the number of its characters. -/
def text : Nat → List Char → Input → Except Error (String × Input)
  | 0, _, input => failHere .endInString input
  | fuel + 1, done, input =>
    match input.rest with
    | [] => failHere .endInString input
    | '"' :: _ => .ok (String.ofList done.reverse, input.skip)
    | '\\' :: _ => do
      let (c, input) ← escape input.skip
      text fuel (c :: done) input
    | c :: _ =>
      if c.toNat < 0x20 then fail .controlCharacter input else text fuel (c :: done) input.skip

/-! ## Values -/

mutual

/-- Reads a value. `depth` is one more than the number of levels that may still be opened, and
`fuel` bounds the number of steps. -/
def value : Nat → Nat → Input → Except Error (Value × Input)
  | 0, _, input => failHere .endInValue input
  | fuel + 1, depth, input =>
    let input := skipSpaces input
    match input.rest with
    | [] => fail .endInValue input
    | 'n' :: _ => do return (.nil, ← word ['u', 'l', 'l'] input.skip)
    | 't' :: _ => do return (.bool true, ← word ['r', 'u', 'e'] input.skip)
    | 'f' :: _ => do return (.bool false, ← word ['a', 'l', 's', 'e'] input.skip)
    | '-' :: _ => number true input.skip
    | '"' :: rest => do
      let (s, input) ← text (rest.length + 1) [] input.skip
      return (.str s, input)
    | '[' :: _ =>
      if depth ≤ 1 then fail .nestedTooDeep input
      else do
        let (vs, input) ← items fuel (depth - 1) true [] input.skip
        return (.list vs, input)
    | '\x7b' :: _ =>
      if depth ≤ 1 then fail .nestedTooDeep input
      else do
        let (es, input) ← entries fuel (depth - 1) true [] input.skip
        return (.map (Value.ofEntries es), input)
    | c :: _ => if c.isDigit then number false input else fail .expectedValue input

/-- Reads the items of a list up to its end; `first` until there is one. -/
def items : Nat → Nat → Bool → List Value → Input → Except Error (List Value × Input)
  | 0, _, _, _, input => failHere .endInList input
  | fuel + 1, depth, first, done, input =>
    let input := skipSpaces input
    match input.rest with
    | [] => fail .endInList input
    | ']' :: _ => .ok (done.reverse, input.skip)
    | c :: _ =>
      if first then do
        let (v, input) ← value fuel depth input
        items fuel depth false (v :: done) input
      else if c = ',' then
        let input := skipSpaces input.skip
        match input.rest with
        | ']' :: _ => fail .trailingComma input
        | [] => fail .endInValue input
        | _ => do
          let (v, input) ← value fuel depth input
          items fuel depth false (v :: done) input
      else fail .expectedListEnd input

/-- Reads the entries of a map up to its end; `first` until there is one. -/
def entries :
    Nat → Nat → Bool → List (String × Value) → Input → Except Error (List (String × Value) × Input)
  | 0, _, _, _, input => failHere .endInMap input
  | fuel + 1, depth, first, done, input =>
    let input := skipSpaces input
    match input.rest with
    | [] => fail .endInMap input
    | '\x7d' :: _ => .ok (done.reverse, input.skip)
    | c :: _ =>
      if first then
        if c = '"' then do
          let (e, input) ← entry fuel depth input
          entries fuel depth false (e :: done) input
        else fail .keyMustBeString input
      else if c = ',' then
        let input := skipSpaces input.skip
        match input.rest with
        | '"' :: _ => do
          let (e, input) ← entry fuel depth input
          entries fuel depth false (e :: done) input
        | '\x7d' :: _ => fail .trailingComma input
        | [] => fail .endInValue input
        | _ => fail .keyMustBeString input
      else fail .expectedMapEnd input

/-- Reads a key, a colon and a value, from the opening quote of the key on. -/
def entry : Nat → Nat → Input → Except Error ((String × Value) × Input)
  | 0, _, input => failHere .endInMap input
  | fuel + 1, depth, input => do
    let (key, input) ← text (input.rest.length + 1) [] input.skip
    let input := skipSpaces input
    match input.rest with
    | ':' :: _ => do
      let (v, input) ← value fuel depth input.skip
      return ((key, v), input)
    | [] => fail .endInMap input
    | _ => fail .expectedColon input

end

/-- Reads a whole text. -/
def document (source : List Char) : Except Error Value := do
  let (v, input) ← value (4 * source.length + 4) 128 ⟨source, 0⟩
  let input := skipSpaces input
  if input.rest.isEmpty then return v else fail .trailingCharacters input

/-- The line of a byte offset, from `1`, and the number of bytes before the offset in that line. -/
def locate (source : List Char) (offset : Nat) : Nat × Nat :=
  let before := (Utf8.encode source).take offset
  let line := before.count 10 + 1
  (line, (before.reverse.takeWhile (· != 10)).length)

end JsonReader

namespace Value

/-- Reads JSON text; an error names its place. -/
def ofJson? (source : String) : Except String Value :=
  match JsonReader.document source.toList with
  | .ok v => .ok v
  | .error e =>
    let (line, column) := JsonReader.locate source.toList e.offset
    .error s!"{e.fault.message} at line {line} column {column}"

/-- The value of JSON text, and of any other text the text itself. -/
def parseLenient (source : String) : Value :=
  match JsonReader.document source.toList with
  | .ok v => v
  | .error _ => .str source

end Value

end BracketTemplate
