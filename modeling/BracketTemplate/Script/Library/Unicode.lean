import BracketTemplate.Script.Library.Strings

/-!
# Functions on text in UTF-8

A text is looked at as a sequence of encoded code points, each given by the place of its first byte.
The encoding is the original one of up to six bytes. A function that is strict takes only the code
points of characters, one that is lax takes all of the `31` bits.
-/

namespace BracketTemplate.Script.Unicode

/-- The wording of an error about an encoding. -/
def invalid : Bytes := utf8 "invalid UTF-8 code"

/-- Whether a byte continues an encoding. -/
def isContinuation (b : UInt8) : Bool := b &&& 0xC0 == 0x80

/-- Whether the byte at the front of a text continues an encoding. -/
def startsInside (text : Bytes) : Bool :=
  match text with
  | b :: _ => isContinuation b
  | [] => false

/-- The least code point that needs so many bytes behind the first. -/
def leastWith : Nat → Nat
  | 0 => twoTo 32
  | 1 => 0x80
  | 2 => 0x800
  | 3 => 0x10000
  | 4 => 0x200000
  | _ => 0x4000000

/-- The number of bytes behind a first byte, and the bits that it gives. -/
def leading (b : UInt8) : Nat × Nat :=
  let c := b.toNat
  if c < 0xC0 then (0, c % 0x80)
  else if c < 0xE0 then (1, c % 0x20)
  else if c < 0xF0 then (2, c % 0x10)
  else if c < 0xF8 then (3, c % 0x08)
  else if c < 0xFC then (4, c % 0x04)
  else if c < 0xFE then (5, c % 0x02)
  else (6, 0)

/-- The code point at the front of a text, and the text behind it. -/
def decode? (lax : Bool) : Bytes → Option (Nat × Bytes)
  | [] => none
  | b :: rest =>
    if b < 0x80 then some (b.toNat, rest)
    else
      let (count, bits) := leading b
      let more := rest.take count
      if more.length < count || !more.all isContinuation || 5 < count then none
      else
        let code := more.foldl (fun n c => n * 64 + c.toNat % 64) bits
        if code < leastWith count || twoTo 31 ≤ code then none
        else if !lax && (0x10FFFF < code || (0xD800 ≤ code && code ≤ 0xDFFF)) then none
        else some (code, rest.drop count)

/-- The encoding of a code point. -/
def encode (code : Nat) : Bytes :=
  let tail (n shift : Nat) : UInt8 := UInt8.ofNat (0x80 + n / twoTo shift % 64)
  if code < 0x80 then [UInt8.ofNat code]
  else if code < 0x800 then [UInt8.ofNat (0xC0 + code / twoTo 6), tail code 0]
  else if code < 0x10000 then [UInt8.ofNat (0xE0 + code / twoTo 12), tail code 6, tail code 0]
  else if code < 0x200000 then
    [UInt8.ofNat (0xF0 + code / twoTo 18), tail code 12, tail code 6, tail code 0]
  else if code < 0x4000000 then
    [UInt8.ofNat (0xF8 + code / twoTo 24), tail code 18, tail code 12, tail code 6, tail code 0]
  else
    [UInt8.ofNat (0xFC + code / twoTo 30), tail code 24, tail code 18, tail code 12, tail code 6,
      tail code 0]

/-- A place counted from the start for one that may be counted from the end. -/
def place (p : Int64) (size : Nat) : Int :=
  let p := p.toInt
  if 0 ≤ p then p
  else if Int.ofNat size < -p then 0
  else Int.ofNat size + p + 1

/-- The code points of the first `size` bytes of a text; the last may go beyond. None when the
encoding is invalid. `fuel` bounds the number of code points. -/
def codes? (lax : Bool) : Nat → Int → Bytes → Option (List Nat)
  | 0, _, _ => some []
  | fuel + 1, size, text =>
    if size ≤ 0 then some []
    else
      match decode? lax text with
      | none => none
      | some (code, rest) =>
        (codes? lax fuel (size - Int.ofNat (text.length - rest.length)) rest).map (code :: ·)

/-- The code points of the characters between two places. -/
def codepoint (a : Arguments) : Act (List Val) := do
  let text ← a.str 1
  let first := place (← a.optInt 2 1) text.length
  let last := place (← a.optInt 3 (Int64.ofInt first)) text.length
  if first < 1 then a.fail 2 (utf8 "out of bounds")
  if Int.ofNat text.length < last then a.fail 3 (utf8 "out of bounds")
  match codes? (a.get 4).truthy (text.length + 1) (last - first + 1)
      (text.drop (first - 1).toNat) with
  | some codes => return codes.map Val.ofNat
  | none => a.site.throw invalid

/-- The number of code points of the first `size` bytes of a text, or the distance of the first
invalid byte. -/
def countFrom (lax : Bool) : Nat → Int → Nat → Nat → Bytes → Except Nat Nat
  | 0, _, _, count, _ => .ok count
  | fuel + 1, size, gone, count, text =>
    if size ≤ Int.ofNat gone then .ok count
    else
      match decode? lax text with
      | none => .error gone
      | some (_, rest) =>
        countFrom lax fuel size (gone + (text.length - rest.length)) (count + 1) rest

/-- The number of characters between two places, or the place of the first invalid byte. -/
def len (a : Arguments) : Act (List Val) := do
  let text ← a.str 1
  let size := Int.ofNat text.length
  let first := place (← a.optInt 2 1) text.length
  let last := place (← a.optInt 3 (-1)) text.length
  if first < 1 || size < first - 1 then a.fail 2 (utf8 "initial position out of bounds")
  if size ≤ last - 1 then a.fail 3 (utf8 "final position out of bounds")
  let start := (first - 1).toNat
  match countFrom (a.get 4).truthy (text.length + 1) (last - first + 1) 0 0 (text.drop start) with
  | .ok n => giveNat n
  | .error gone => return [.nil, .ofNat (start + gone + 1)]

/-- Whether the byte at an index continues an encoding. -/
def insideAt (text : Bytes) (i : Nat) : Bool := startsInside (text.drop i)

/-- The index of the first byte of the character before an index. -/
def stepBack (text : Bytes) : Nat → Nat
  | 0 => 0
  | i + 1 => if insideAt text i then stepBack text i else i

/-- The number of bytes at the front of a text that continue an encoding. -/
def skipInside (text : Bytes) : Nat := (text.takeWhile isContinuation).length

/-- Goes so many characters back from an index; none when the start is reached first. -/
def back (text : Bytes) : Nat → Nat → Option Nat
  | 0, i => some i
  | n + 1, i => if i == 0 then none else back text n (stepBack text i)

/-- Goes so many characters on from an index; none when the end is reached first. -/
def onwards (text : Bytes) : Nat → Nat → Option Nat
  | 0, i => some i
  | n + 1, i =>
    if text.length ≤ i then none else onwards text n (i + 1 + skipInside (text.drop (i + 1)))

/-- The place of a character, counted in characters from another place. -/
def offset (a : Arguments) : Act (List Val) := do
  let text ← a.str 1
  let n := (← a.int 2).toInt
  let start := if 0 < n then 1 else Int64.ofNat (text.length + 1)
  let first := place (← a.optInt 3 start) text.length
  if first < 1 || Int.ofNat text.length < first - 1 then
    a.fail 3 (utf8 "position out of bounds")
  let i := (first - 1).toNat
  let give (found : Option Nat) : Act (List Val) :=
    pure [(found.map fun i => Val.ofNat (i + 1)).getD .nil]
  if n == 0 then give (some (if insideAt text i then stepBack text i else i))
  else if insideAt text i then a.site.throw (utf8 "initial position is a continuation byte")
  else if n < 0 then give (back text (min n.natAbs (text.length + 1)) i)
  else give (onwards text (min (n.toNat - 1) (text.length + 1)) i)

/-- The place and the code point of the character behind a place. -/
def codesStep (a : Arguments) (lax : Bool) : Act (List Val) := do
  let text ← a.str 1
  let n := ((a.get 2).toInt?.getD 0).toUInt64.toNat
  let n := if n < text.length then n + skipInside (text.drop n) else n
  if text.length ≤ n then return []
  else
    match decode? lax (text.drop n) with
    | some (code, rest) =>
      if startsInside rest then a.site.throw invalid
      else return [.ofNat (n + 1), .ofNat code]
    | none => a.site.throw invalid

/-- Runs a function on text in UTF-8. -/
def run (f : Utf8Function) (a : Arguments) : Act (List Val) :=
  match f with
  | .char => do
    let pieces ← (List.range a.count).mapM fun i => do
      let code := (← a.int (i + 1)).toInt
      if code < 0 || twoTo 31 ≤ code then a.fail (i + 1) (utf8 "value out of range")
      else return encode code.toNat
    giveStr pieces.flatten
  | .codepoint => codepoint a
  | .codes => do
    let lax := (a.get 2).truthy
    let text ← a.str 1
    if startsInside text then a.fail 1 invalid
    else return [.builtin (.utf8 (.codesStep lax)), .str text, .int 0]
  | .codesStep lax => codesStep a lax
  | .len => len a
  | .offset => offset a

/-- The functions under their names. -/
def names : List (String × Utf8Function) :=
  [("char", .char), ("codepoint", .codepoint), ("codes", .codes), ("len", .len),
    ("offset", .offset)]

/-- A pattern that matches one encoded character. -/
def charPattern : Bytes :=
  [91, 0, 45, 0x7F, 0xC2, 45, 0xFD, 93, 91, 0x80, 45, 0xBF, 93, 42]

end BracketTemplate.Script.Unicode
