/-!
# UTF-8

The script language computes on strings of bytes, the templates are made of characters, and the two
meet in three places:

* `Utf8.encode` turns characters into bytes (a binding handed to a script);
* `Utf8.decode?` accepts exactly well-formed sequences and otherwise says where and how the first
  malformed one starts (a host function that asks for text);
* `Utf8.decodeLossy` never fails: every maximal malformed piece becomes one replacement character
  (whatever a script prints).

Both decoders step with `Utf8.next`, which looks at one sequence and tells its scalar value, or how
many bytes of it are to be given up. A piece is given up up to the first byte that no well-formed
sequence can have at its place, so a decoder never swallows a byte that could start a character.
-/

namespace BracketTemplate

/-- A string of the script language: any bytes. -/
abbrev Bytes := List UInt8

namespace Utf8

/-! ## Encoding -/

/-- The one to four bytes of a character. -/
def encodeChar (c : Char) : Bytes :=
  let n := c.toNat
  if n < 0x80 then [UInt8.ofNat n]
  else if n < 0x800 then [UInt8.ofNat (0xC0 + n / 0x40), UInt8.ofNat (0x80 + n % 0x40)]
  else if n < 0x10000 then
    [UInt8.ofNat (0xE0 + n / 0x1000), UInt8.ofNat (0x80 + n / 0x40 % 0x40),
      UInt8.ofNat (0x80 + n % 0x40)]
  else
    [UInt8.ofNat (0xF0 + n / 0x40000), UInt8.ofNat (0x80 + n / 0x1000 % 0x40),
      UInt8.ofNat (0x80 + n / 0x40 % 0x40), UInt8.ofNat (0x80 + n % 0x40)]

/-- The bytes of a text. -/
def encode (text : List Char) : Bytes := text.flatMap encodeChar

@[simp] theorem encode_nil : encode [] = [] := rfl

theorem encode_append (s t : List Char) : encode (s ++ t) = encode s ++ encode t := by
  simp [encode]

/-- The number of bytes of a text. -/
def size (text : List Char) : Nat := text.foldl (fun n c => n + c.utf8Size) 0

/-! ## One sequence -/

/-- What stands at the start of a non-empty string of bytes. -/
inductive Sequence where
  /-- A character and the number of bytes it takes. -/
  | scalar (c : Char) (width : Nat)
  /-- A malformed piece of that many bytes. -/
  | malformed (width : Nat)
  /-- A piece that could have become a character, had the bytes not ended. -/
  | truncated
  deriving DecidableEq, Repr

/-- A byte that continues a sequence. -/
def isContinuation (b : UInt8) : Bool := 0x80 ≤ b && b < 0xC0

/-- The range that the second byte of a sequence has to be in, by its first byte. -/
def secondByteRange (first : UInt8) : UInt8 × UInt8 :=
  if first == 0xE0 then (0xA0, 0xBF)
  else if first == 0xED then (0x80, 0x9F)
  else if first == 0xF0 then (0x90, 0xBF)
  else if first == 0xF4 then (0x80, 0x8F)
  else (0x80, 0xBF)

/-- The number of bytes a sequence has by its first byte, `0` for a byte that starts none. -/
def width (first : UInt8) : Nat :=
  if first < 0x80 then 1
  else if 0xC2 ≤ first && first ≤ 0xDF then 2
  else if 0xE0 ≤ first && first ≤ 0xEF then 3
  else if 0xF0 ≤ first && first ≤ 0xF4 then 4
  else 0

/-- The six low bits of a continuation byte. -/
def low (b : UInt8) : Nat := b.toNat % 0x40

/-- Looks at the sequence that starts with `first` and goes on in `rest`. -/
def next (first : UInt8) (rest : Bytes) : Sequence :=
  let range := secondByteRange first
  match width first with
  | 1 => .scalar (Char.ofNat first.toNat) 1
  | 2 =>
    match rest with
    | [] => .truncated
    | b :: _ =>
      if isContinuation b then .scalar (Char.ofNat (first.toNat % 0x20 * 0x40 + low b)) 2
      else .malformed 1
  | 3 =>
    match rest with
    | [] => .truncated
    | b :: rest =>
      if range.1 ≤ b && b ≤ range.2 then
        match rest with
        | [] => .truncated
        | c :: _ =>
          if isContinuation c then
            .scalar (Char.ofNat ((first.toNat % 0x10 * 0x40 + low b) * 0x40 + low c)) 3
          else .malformed 2
      else .malformed 1
  | 4 =>
    match rest with
    | [] => .truncated
    | b :: rest =>
      if range.1 ≤ b && b ≤ range.2 then
        match rest with
        | [] => .truncated
        | c :: rest =>
          if isContinuation c then
            match rest with
            | [] => .truncated
            | d :: _ =>
              if isContinuation d then
                .scalar
                  (Char.ofNat (((first.toNat % 8 * 0x40 + low b) * 0x40 + low c) * 0x40 + low d)) 4
              else .malformed 3
          else .malformed 2
      else .malformed 1
  | _ => .malformed 1

/-! ## Decoding -/

/-- Where a string of bytes stops being UTF-8. -/
inductive Fault where
  /-- A malformed piece of `width` bytes starts at `index`. -/
  | malformed (width index : Nat)
  /-- The bytes end within the character that starts at `index`. -/
  | truncated (index : Nat)
  deriving DecidableEq, Repr

/-- The wording of a fault. -/
def Fault.message : Fault → String
  | .malformed width index => s!"invalid utf-8 sequence of {width} bytes from index {index}"
  | .truncated index => s!"incomplete utf-8 byte sequence from index {index}"

/-- The decoder behind `decode?`: `skip` bytes of the current character are still to be passed over,
and `index` counts the bytes before the rest. -/
def decodeFrom : Nat → Nat → Bytes → Except Fault (List Char)
  | _, _, [] => .ok []
  | skip + 1, index, _ :: rest => decodeFrom skip (index + 1) rest
  | 0, index, b :: rest =>
    match next b rest with
    | .scalar c width => do return c :: (← decodeFrom (width - 1) (index + 1) rest)
    | .malformed width => .error (.malformed width index)
    | .truncated => .error (.truncated index)

/-- The text of well-formed bytes, or the first fault of others. -/
def decode? (bytes : Bytes) : Except Fault (List Char) := decodeFrom 0 0 bytes

/-- The decoder behind `decodeLossy`, with `skip` bytes still to be passed over. -/
def decodeLossyFrom : Nat → Bytes → List Char
  | _, [] => []
  | skip + 1, _ :: rest => decodeLossyFrom skip rest
  | 0, b :: rest =>
    match next b rest with
    | .scalar c width => c :: decodeLossyFrom (width - 1) rest
    | .malformed width => '\uFFFD' :: decodeLossyFrom (width - 1) rest
    | .truncated => ['\uFFFD']

/-- The text of any bytes, with one replacement character for each malformed piece. -/
def decodeLossy (bytes : Bytes) : List Char := decodeLossyFrom 0 bytes

@[simp] theorem decodeLossy_nil : decodeLossy [] = [] := rfl

end Utf8

/-- The bytes of a string. -/
def utf8 (s : String) : Bytes := Utf8.encode s.toList

/-- Bytes as text, whatever they are. -/
def Bytes.text (b : Bytes) : String := String.ofList (Utf8.decodeLossy b)

end BracketTemplate
