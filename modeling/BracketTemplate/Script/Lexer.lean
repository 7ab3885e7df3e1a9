import BracketTemplate.Script.Token

/-!
# From bytes to tokens

`Lexer.next` reads one token. It keeps the characters of the token as a report would show them: a
string with its quotes and its escapes resolved, a numeral as written. A fault names the line
reached and the characters taken so far.

A carriage return and a line feed next to each other, in either order, are one line end. Long
brackets take any number of signs between their two brackets, and drop a line end right behind the
opening one.

`Lexer.read` reads one token of a script that must not have too many lines.
-/

namespace BracketTemplate.Script

namespace Lexer

/-- What is left of a script, and the line it starts on. -/
structure Input where
  rest : Bytes
  line : Nat
  deriving Repr, Inhabited

/-- A fault with the spelling of the token it lies in, or at the end of the script. -/
def fail {α : Type} (input : Input) (wording : String) (spelling : Option Bytes) :
    Except SyntaxFault α :=
  let shown := match spelling with
    | none => utf8 "<eof>"
    | some text => 39 :: text.takeWhile (· != 0) ++ [39]
  .error ⟨input.line, utf8 wording ++ utf8 " near " ++ shown⟩

/-- Whether a byte ends a line. -/
def isNewline (b : UInt8) : Bool := b == 10 || b == 13

/-- Moves over one byte. -/
def Input.skip (i : Input) : Input := { i with rest := i.rest.drop 1 }

/-- Moves over a line end. -/
def Input.newline (i : Input) : Input :=
  match i.rest with
  | a :: b :: rest =>
    if isNewline b && a != b then ⟨rest, i.line + 1⟩ else ⟨b :: rest, i.line + 1⟩
  | _ => ⟨[], i.line + 1⟩

/-! ## Long brackets -/

/-- The number of signs between two brackets `bracket` at the front; none when there are no two. -/
def longLevel? (bracket : UInt8) (rest : Bytes) : Option Nat :=
  match rest with
  | [] => none
  | b :: rest =>
    if b != bracket then none
    else
      let signs := (rest.takeWhile (· == 61)).length
      if (rest.drop signs).head? == some bracket then some signs else none

/-- Reads the inside of a long bracket up to its end; `fuel` bounds the number of bytes. -/
def longBody (level opened : Nat) (what : String) : Nat → Bytes → Input →
    Except SyntaxFault (Bytes × Input)
  | 0, _, input => fail input s!"unfinished long {what} (starting at line {opened})" none
  | fuel + 1, done, input =>
    match input.rest with
    | [] => fail input s!"unfinished long {what} (starting at line {opened})" none
    | b :: _ =>
      if longLevel? 93 input.rest == some level then
        .ok (done.reverse, { input with rest := input.rest.drop (level + 2) })
      else if isNewline b then longBody level opened what fuel (10 :: done) input.newline
      else longBody level opened what fuel (b :: done) input.skip

/-- Reads a long bracket from its opening on. -/
def long (level : Nat) (what : String) (input : Input) : Except SyntaxFault (Bytes × Input) :=
  let inside := { input with rest := input.rest.drop (level + 2) }
  let inside := match inside.rest with
    | b :: _ => if isNewline b then inside.newline else inside
    | [] => inside
  longBody level input.line what (inside.rest.length + 1) [] inside

/-! ## Strings -/

/-- The bytes of a code point below `2 ^ 31`, in the form of UTF-8 that goes up to six bytes. -/
def utf8Long (n : Nat) : Bytes :=
  if n < 0x80 then [UInt8.ofNat n]
  else if n < 0x800 then [UInt8.ofNat (0xC0 + n / 0x40), UInt8.ofNat (0x80 + n % 0x40)]
  else if n < 0x10000 then
    [UInt8.ofNat (0xE0 + n / 0x1000), UInt8.ofNat (0x80 + n / 0x40 % 0x40),
      UInt8.ofNat (0x80 + n % 0x40)]
  else if n < 0x200000 then
    [UInt8.ofNat (0xF0 + n / 0x40000), UInt8.ofNat (0x80 + n / 0x1000 % 0x40),
      UInt8.ofNat (0x80 + n / 0x40 % 0x40), UInt8.ofNat (0x80 + n % 0x40)]
  else if n < 0x4000000 then
    [UInt8.ofNat (0xF8 + n / 0x1000000), UInt8.ofNat (0x80 + n / 0x40000 % 0x40),
      UInt8.ofNat (0x80 + n / 0x1000 % 0x40), UInt8.ofNat (0x80 + n / 0x40 % 0x40),
      UInt8.ofNat (0x80 + n % 0x40)]
  else
    [UInt8.ofNat (0xFC + n / 0x40000000), UInt8.ofNat (0x80 + n / 0x1000000 % 0x40),
      UInt8.ofNat (0x80 + n / 0x40000 % 0x40), UInt8.ofNat (0x80 + n / 0x1000 % 0x40),
      UInt8.ofNat (0x80 + n / 0x40 % 0x40), UInt8.ofNat (0x80 + n % 0x40)]

/-- A fault in an escape: the byte reached, if there is one, is shown too. -/
def failEscape {α : Type} (input : Input) (wording : String) (shown : Bytes) :
    Except SyntaxFault α :=
  fail input wording (some (shown ++ input.rest.take 1))

/-- Reads the digits of a `u` escape behind the first; `shown` is what a report would show. -/
def unicodeDigits : Nat → Nat → Bytes → Input → Except SyntaxFault (Nat × Bytes × Input)
  | 0, n, shown, input => .ok (n, shown, input)
  | fuel + 1, n, shown, input =>
    match input.rest with
    | [] => .ok (n, shown, input)
    | b :: _ =>
      match Byte.hexValue? b with
      | none => .ok (n, shown, input)
      | some d =>
        if 0x7FFFFFF < n then failEscape input "UTF-8 value too large" shown
        else unicodeDigits fuel (n * 16 + d) (shown ++ [b]) input.skip

/-- Reads an escape behind its backslash; `shown` is the string so far with the backslash. Gives the
bytes that the escape stands for. -/
def escape (shown : Bytes) (input : Input) : Except SyntaxFault (Bytes × Input) :=
  match input.rest with
  | [] => .ok ([], input)
  | b :: rest =>
    if b == 97 then .ok ([7], input.skip)
    else if b == 98 then .ok ([8], input.skip)
    else if b == 102 then .ok ([12], input.skip)
    else if b == 110 then .ok ([10], input.skip)
    else if b == 114 then .ok ([13], input.skip)
    else if b == 116 then .ok ([9], input.skip)
    else if b == 118 then .ok ([11], input.skip)
    else if b == 92 || b == 34 || b == 39 then .ok ([b], input.skip)
    else if isNewline b then .ok ([10], input.newline)
    else if b == 120 then
      let shown := shown ++ [b]
      match rest with
      | [] => failEscape input.skip "hexadecimal digit expected" shown
      | c :: more =>
        match Byte.hexValue? c with
        | none => failEscape input.skip "hexadecimal digit expected" shown
        | some high =>
          let shown := shown ++ [c]
          match more.head?.bind Byte.hexValue? with
          | none => failEscape input.skip.skip "hexadecimal digit expected" shown
          | some low => .ok ([UInt8.ofNat (high * 16 + low)], input.skip.skip.skip)
    else if b == 117 then do
      let shown := shown ++ [b]
      let input := input.skip
      match input.rest with
      | 123 :: digit :: _ =>
        let shown := shown ++ [123]
        let input := input.skip
        match Byte.hexValue? digit with
        | none => failEscape input "hexadecimal digit expected" shown
        | some d =>
          let (n, shown, input) ←
            unicodeDigits input.rest.length d (shown ++ [digit]) input.skip
          match input.rest with
          | 125 :: _ => return (utf8Long n, input.skip)
          | _ => failEscape input "missing '\x7d'" shown
      | [123] => failEscape input.skip "hexadecimal digit expected" (shown ++ [123])
      | _ => failEscape input "missing '\x7b'" shown
    else if Byte.isDigit b then
      let digits := (input.rest.take 3).takeWhile Byte.isDigit
      let n := Numeral.ofDigits 10 digits
      let after := { input with rest := input.rest.drop digits.length }
      if 255 < n then failEscape after "decimal escape too large" (shown ++ digits)
      else .ok ([UInt8.ofNat n], after)
    else failEscape input "invalid escape sequence" shown

/-- Moves over white space, as a `z` escape does. -/
def skipSpace : Nat → Input → Input
  | 0, input => input
  | fuel + 1, input =>
    match input.rest with
    | [] => input
    | b :: _ =>
      if isNewline b then skipSpace fuel input.newline
      else if Byte.isSpace b then skipSpace fuel input.skip
      else input

/-- Reads a string behind its opening quote; `fuel` bounds the number of bytes. -/
def quoted (quote : UInt8) : Nat → Bytes → Input → Except SyntaxFault (Bytes × Input)
  | 0, _, input => fail input "unfinished string" none
  | fuel + 1, done, input =>
    match input.rest with
    | [] => fail input "unfinished string" none
    | b :: rest =>
      if b == quote then .ok (done.reverse, input.skip)
      else if isNewline b then fail input "unfinished string" (some (quote :: done.reverse))
      else if b == 92 then
        if rest.head? == some 122 then
          quoted quote fuel done (skipSpace rest.length input.skip.skip)
        else do
          let (text, input) ← escape (quote :: done.reverse ++ [92]) input.skip
          quoted quote fuel (text.reverse ++ done) input
      else quoted quote fuel (b :: done) input.skip

/-! ## Numerals and the rest -/

/-- The bytes of a numeral: digits of either base, points, and exponent marks with their signs. -/
def numeralBytes (mark : UInt8) : Nat → Bytes → Bytes → Bytes
  | 0, done, _ => done
  | _ + 1, done, [] => done
  | fuel + 1, done, b :: rest =>
    if Byte.toLower b == mark then
      match rest with
      | s :: more =>
        if s == 43 || s == 45 then numeralBytes mark fuel (s :: b :: done) more
        else numeralBytes mark fuel (b :: done) rest
      | [] => b :: done
    else if Byte.isHexDigit b || b == 46 then numeralBytes mark fuel (b :: done) rest
    else if Byte.isNameStart b then b :: done
    else done

/-- Reads a numeral; a letter behind it becomes part of it and makes it malformed. -/
def numeral (input : Input) : Except SyntaxFault (Lexeme × Input) :=
  let isHex := (Numeral.hexBody? input.rest).isSome
  let start := if isHex then input.rest.take 2 else input.rest.take 1
  let text := (numeralBytes (if isHex then 112 else 101) input.rest.length start.reverse
    (input.rest.drop start.length)).reverse
  let after := { input with rest := input.rest.drop text.length }
  match Numeral.read? text with
  | some n => .ok (⟨.number n, after.line, text⟩, after)
  | none => fail after "malformed number" (some text)

/-- The symbols, longer ones before shorter ones that they start with. -/
def symbols : List String :=
  ["...", "..", "==", "~=", "<=", ">=", "<<", ">>", "//", "::", "+", "-", "*", "/", "%", "^", "#",
    "&", "~", "|", "<", ">", "=", "(", ")", "\x7b", "\x7d", "[", "]", ";", ":", ",", "."]

/-- The symbol at the front. -/
def symbol? (rest : Bytes) : Option String := symbols.find? fun s => (utf8 s).isPrefixOf rest

/-- Moves over a comment behind its two dashes. -/
def comment (input : Input) : Except SyntaxFault Input :=
  match longLevel? 91 input.rest with
  | some level => do
    let (_, input) ← long level "comment" input
    return input
  | none => .ok { input with rest := input.rest.dropWhile fun b => !isNewline b }

/-- Reads the token at the front, which is not white space. -/
def token (b : UInt8) (input : Input) : Except SyntaxFault (Lexeme × Input) :=
  if Byte.isNameStart b then
    let text := input.rest.takeWhile Byte.isNamePart
    let after := { input with rest := input.rest.drop text.length }
    match keywords.find? fun k => utf8 k == text with
    | some k => .ok (⟨.keyword k, input.line, text⟩, after)
    | none => .ok (⟨.name text, input.line, text⟩, after)
  else if Byte.isDigit b then numeral input
  else if b == 34 || b == 39 then do
    let (text, after) ← quoted b input.rest.length [] input.skip
    return (⟨.string text, after.line, b :: text ++ [b]⟩, after)
  else if b == 91 && (input.rest.drop 1).head?.any (fun c => c == 91 || c == 61) then
    match longLevel? 91 input.rest with
    | some level => do
      let (text, after) ← long level "string" input
      let signs := List.replicate level 61
      return (⟨.string text, after.line, 91 :: signs ++ 91 :: text ++ 93 :: signs ++ [93]⟩, after)
    | none =>
      let taken := 1 + ((input.rest.drop 1).takeWhile (· == 61)).length
      fail input "invalid long string delimiter" (some (input.rest.take taken))
  else if b == 46 && (input.rest.drop 1).head?.any Byte.isDigit then numeral input
  else
    match symbol? input.rest with
    | some s =>
      .ok (⟨.symbol s, input.line, utf8 s⟩,
        { input with rest := input.rest.drop (utf8 s).length })
    | none => .ok (⟨.stray b, input.line, [b]⟩, input.skip)

/-- Reads the next token; `fuel` bounds the number of bytes passed over before it. -/
def next : Nat → Input → Except SyntaxFault (Lexeme × Input)
  | 0, input => .ok (⟨.eof, input.line, []⟩, input)
  | fuel + 1, input =>
    match input.rest with
    | [] => .ok (⟨.eof, input.line, []⟩, input)
    | b :: rest =>
      if isNewline b then next fuel input.newline
      else if Byte.isSpace b then next fuel input.skip
      else if b == 45 && rest.head? == some 45 then do
        next fuel (← comment input.skip.skip)
      else token b input

/-- The line that a script may not come to. -/
def maxLines : Nat := 2147483647

/-- The fault of a script that comes to that line; it is not near to any token. -/
def tooManyLines : SyntaxFault := ⟨maxLines, utf8 "chunk has too many lines"⟩

/-- Reads the next token, as long as the script does not have too many lines. That many lines are a
fault as soon as they are counted, so they come before any other fault on the line reached. -/
def read (input : Input) : Except SyntaxFault (Lexeme × Input) :=
  match next (input.rest.length + 1) input with
  | .error f => .error (if f.line < maxLines then f else tooManyLines)
  | .ok (l, after) => if after.line < maxLines then .ok (l, after) else .error tooManyLines

end Lexer

/-- The tokens of a script up to its end, or up to a fault, which is met only by a reader who gets
that far. -/
inductive Lexemes where
  | eof (line : Nat)
  | fault (f : SyntaxFault)
  | cons (l : Lexeme) (rest : Lexemes)
  deriving Repr, Inhabited

/-- Reads tokens from an input; `fuel` bounds their number. -/
def Lexemes.ofInput : Nat → Lexer.Input → Lexemes
  | 0, input => .eof input.line
  | fuel + 1, input =>
    match Lexer.read input with
    | .error f => .fault f
    | .ok (l, after) =>
      match l.token with
      | .eof => .eof l.line
      | _ => .cons l (ofInput fuel after)

/-- The tokens of a script. -/
def Lexemes.ofScript (script : Bytes) : Lexemes :=
  Lexemes.ofInput (script.length + 1) ⟨script, 1⟩

end BracketTemplate.Script
