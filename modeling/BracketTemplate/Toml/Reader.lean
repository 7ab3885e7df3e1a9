import BracketTemplate.Toml.Basic
import BracketTemplate.Value.JsonReader

/-!
# Reading documents of settings

A document is read line by line: a header, an assignment, or nothing, with a comment behind it if
there is one. What is wrong with a document is not told; it is read or it is not.

Numbers and dates are read from the longest run of characters that they are made of. Lists and
tables in braces nest at most 79 deep, and a key has fewer than 80 parts.
-/

namespace BracketTemplate.Toml.Reader

/-! ## Blanks and comments -/

/-- Whether a character is blank. -/
def isBlank (c : Char) : Bool := c = ' ' || c = '\t'

/-- A text without the blanks in front of it. -/
def skipBlanks (s : List Char) : List Char := s.dropWhile isBlank

/-- Whether a character can stand in comments and quoted texts. -/
def isPlain (c : Char) : Bool := c = '\t' || (' ' ≤ c && c ≠ '\x7f')

/-- What is behind an end of line. -/
def lineEnd? : List Char → Option (List Char)
  | '\n' :: rest => some rest
  | '\r' :: '\n' :: rest => some rest
  | _ => none

/-- A text without the comment in front of it. -/
def skipComment (s : List Char) : List Char :=
  match s with
  | '#' :: rest => rest.dropWhile isPlain
  | s => s

/-- What is behind the rest of a line, which has nothing but a comment. -/
def restOfLine? (s : List Char) : Option (List Char) :=
  match skipComment (skipBlanks s) with
  | [] => some []
  | s => lineEnd? s

/-- A text without the blanks, comments and ends of lines in front of it; `fuel` bounds the
lines. -/
def skipLines : Nat → List Char → List Char
  | 0, s => s
  | fuel + 1, s =>
    let s := skipComment (skipBlanks s)
    match lineEnd? s with
    | some rest => skipLines fuel rest
    | none => s

/-! ## Texts -/

/-- The character with a number in so many hexadecimal digits. -/
def codeEscape (digits : Nat) (s : List Char) : Option (Char × List Char) := do
  let values ← (s.take digits).mapM JsonReader.hexDigit?
  if values.length < digits then none
  else
    let n := values.foldl (fun n d => n * 16 + d) 0
    if h : n.isValidChar then some (Char.ofNatAux n h, s.drop digits) else none

/-- The character that an escape stands for. -/
def escape : List Char → Option (Char × List Char)
  | 'b' :: rest => some ('\x08', rest)
  | 't' :: rest => some ('\t', rest)
  | 'n' :: rest => some ('\n', rest)
  | 'f' :: rest => some ('\x0c', rest)
  | 'r' :: rest => some ('\r', rest)
  | '"' :: rest => some ('"', rest)
  | '\\' :: rest => some ('\\', rest)
  | 'u' :: rest => codeEscape 4 rest
  | 'U' :: rest => codeEscape 8 rest
  | _ => none

/-- A text in quotes with escapes, behind the opening quote; `done` is backwards. -/
def quoted : Nat → List Char → List Char → Option (String × List Char)
  | 0, _, _ => none
  | fuel + 1, done, s =>
    match s with
    | '"' :: rest => some (String.ofList done.reverse, rest)
    | '\\' :: rest => do
      let (c, rest) ← escape rest
      quoted fuel (c :: done) rest
    | c :: rest => if isPlain c then quoted fuel (c :: done) rest else none
    | [] => none

/-- A text in quotes without escapes, behind the opening quote. -/
def literal (s : List Char) : Option (String × List Char) :=
  let run := s.takeWhile fun c => isPlain c && c ≠ '\''
  match s.drop run.length with
  | '\'' :: rest => some (String.ofList run, rest)
  | _ => none

/-- What is behind the end of a line that is to be left out with all blanks and lines after it. -/
def joinedLines (s : List Char) : Option (List Char) := do
  let rest ← lineEnd? (skipBlanks s)
  return rest.dropWhile fun c => isBlank c || c = '\n' || c = '\r'

/-- A text of several lines with escapes. Up to two quotes in a row belong to the text; of up to
five the last three end it. -/
def quotedLines : Nat → List Char → List Char → Option (String × List Char)
  | 0, _, _ => none
  | fuel + 1, done, s =>
    match s with
    | [] => none
    | '"' :: rest =>
      let count := (s.takeWhile (· = '"')).length
      if 5 < count then none
      else if 3 ≤ count then
        some (String.ofList (List.replicate (count - 3) '"' ++ done).reverse, s.drop count)
      else quotedLines fuel ('"' :: done) rest
    | '\\' :: rest =>
      match joinedLines rest with
      | some rest => quotedLines fuel done rest
      | none => do
        let (c, rest) ← escape rest
        quotedLines fuel (c :: done) rest
    | c :: rest =>
      match lineEnd? s with
      | some rest => quotedLines fuel ('\n' :: done) rest
      | none => if isPlain c then quotedLines fuel (c :: done) rest else none

/-- A text of several lines without escapes. -/
def literalLines : Nat → List Char → List Char → Option (String × List Char)
  | 0, _, _ => none
  | fuel + 1, done, s =>
    match s with
    | [] => none
    | '\'' :: rest =>
      let count := (s.takeWhile (· = '\'')).length
      if 5 < count then none
      else if 3 ≤ count then
        some (String.ofList (List.replicate (count - 3) '\'' ++ done).reverse, s.drop count)
      else literalLines fuel ('\'' :: done) rest
    | c :: rest =>
      match lineEnd? s with
      | some rest => literalLines fuel ('\n' :: done) rest
      | none => if isPlain c then literalLines fuel (c :: done) rest else none

/-- What is behind the end of line that a text of several lines may start with. -/
def afterFirstEnd (s : List Char) : List Char := (lineEnd? s).getD s

/-- A text. -/
def text (s : List Char) : Option (String × List Char) :=
  match s with
  | '"' :: '"' :: '"' :: rest => quotedLines (s.length + 1) [] (afterFirstEnd rest)
  | '"' :: rest => quoted (s.length + 1) [] rest
  | '\'' :: '\'' :: '\'' :: rest => literalLines (s.length + 1) [] (afterFirstEnd rest)
  | '\'' :: rest => literal rest
  | _ => none

/-! ## Keys -/

/-- Whether a character can stand in a key without quotes. -/
def isKeyChar (c : Char) : Bool := c.isAlphanum || c = '_' || c = '-'

/-- A part of a key. -/
def keyPart (s : List Char) : Option (String × List Char) :=
  match s with
  | '"' :: rest => quoted (s.length + 1) [] rest
  | '\'' :: rest => literal rest
  | s =>
    let run := s.takeWhile isKeyChar
    if run.isEmpty then none else some (String.ofList run, s.drop run.length)

/-- The parts of a key, with blanks around them. -/
def keyParts : Nat → List Char → Option (List String × List Char)
  | 0, _ => none
  | fuel + 1, s => do
    let (part, rest) ← keyPart (skipBlanks s)
    match skipBlanks rest with
    | '.' :: rest =>
      let (parts, rest) ← keyParts fuel rest
      return (part :: parts, rest)
    | rest => return ([part], rest)

/-- A key of fewer than 80 parts. -/
def key (s : List Char) : Option (List String × List Char) := keyParts 79 s

/-! ## Numbers -/

/-- Digits with single underscores between them, without the underscores. -/
def digitGroups? (isDigit : Char → Bool) : List Char → Option (List Char)
  | [] => none
  | [c] => if isDigit c then some [c] else none
  | c :: '_' :: rest => if isDigit c then (digitGroups? isDigit rest).map (c :: ·) else none
  | c :: rest => if isDigit c then (digitGroups? isDigit rest).map (c :: ·) else none

/-- The number that digits stand for. -/
def ofDigits (base : Nat) (digits : List Char) : Nat :=
  digits.foldl (fun n c => n * base + (JsonReader.hexDigit? c).getD 0) 0

/-- An integer that fits. -/
def fitting (n : Int) : Option Toml :=
  if -(twoTo 63) ≤ n && n < twoTo 63 then some (.integer (Int64.ofInt n)) else none

/-- A sign in front of something. -/
def sign : List Char → Bool × List Char
  | '-' :: rest => (true, rest)
  | '+' :: rest => (false, rest)
  | rest => (false, rest)

/-- The digits of a decimal integer, which has no zero in front. -/
def decimalDigits? (s : List Char) : Option (List Char) := do
  let digits ← digitGroups? Char.isDigit s
  match digits with
  | '0' :: _ :: _ => none
  | digits => some digits

/-- An integer in decimal or, without a sign, behind a mark of its base. -/
def integer? (s : List Char) : Option Toml :=
  let based (base : Nat) (isDigit : Char → Bool) (rest : List Char) : Option Toml := do
    let digits ← digitGroups? isDigit rest
    fitting (Int.ofNat (ofDigits base digits))
  match s with
  | '0' :: 'x' :: rest => based 16 (fun c => (JsonReader.hexDigit? c).isSome) rest
  | '0' :: 'o' :: rest => based 8 (fun c => '0' ≤ c && c ≤ '7') rest
  | '0' :: 'b' :: rest => based 2 (fun c => c = '0' || c = '1') rest
  | s => do
    let (negative, rest) := sign s
    let n := Int.ofNat (ofDigits 10 (← decimalDigits? rest))
    fitting (if negative then -n else n)

/-- A double that has a fraction, an exponent, or a name. The positive numbers that are too large
are refused. -/
def float? (s : List Char) : Option Toml :=
  let (negative, rest) := sign s
  let signed (x : Float) : Toml := .float (if negative then -x else x)
  if rest = "inf".toList then some (signed (1.0 / 0.0))
  else if rest = "nan".toList then some (signed (0.0 / 0.0))
  else do
    let isMark (c : Char) : Bool := c = '.' || c = 'e' || c = 'E'
    let whole ← decimalDigits? (rest.takeWhile fun c => !isMark c)
    let rest := rest.dropWhile fun c => !isMark c
    let (fraction, rest) ← match rest with
      | '.' :: rest => do
        let digits ← digitGroups? Char.isDigit (rest.takeWhile fun c => !isMark c)
        pure (digits, rest.dropWhile fun c => !isMark c)
      | rest => if rest.isEmpty then none else some ([], rest)
    let power ← match rest with
      | [] => some 0
      | '.' :: _ => none
      | _ :: rest => do
        let (down, rest) := sign rest
        let n := Int.ofNat (ofDigits 10 (← digitGroups? Char.isDigit rest))
        pure (if down then -n else n)
    let x :=
      Binary64.ofDecimal (ofDigits 10 (whole ++ fraction)) (power - Int.ofNat fraction.length)
    if !negative && x == 1.0 / 0.0 then none else some (signed x)

/-! ## Dates and times -/

/-- A number of so many digits within bounds. -/
def field (digits low high : Nat) (s : List Char) : Option (Nat × List Char) :=
  let run := s.take digits
  if run.length < digits || !run.all Char.isDigit then none
  else
    let n := ofDigits 10 run
    if low ≤ n && n ≤ high then some (n, s.drop digits) else none

/-- What is behind a character. -/
def behind? (c : Char) : List Char → Option (List Char)
  | d :: rest => if c = d then some rest else none
  | [] => none

/-- The number of days of a month. -/
def daysOf (year month : Nat) : Nat :=
  if month == 2 then (if year % 4 == 0 && (year % 100 != 0 || year % 400 == 0) then 29 else 28)
  else if [4, 6, 9, 11].contains month then 30
  else 31

/-- What is behind a date. -/
def afterDate? (s : List Char) : Option (List Char) := do
  let (year, s) ← field 4 0 9999 s
  let (month, s) ← field 2 1 12 (← behind? '-' s)
  let (_, s) ← field 2 1 (daysOf year month) (← behind? '-' s)
  return s

/-- What is behind a time of day. -/
def afterTime? (s : List Char) : Option (List Char) := do
  let (_, s) ← field 2 0 23 s
  let (_, s) ← field 2 0 59 (← behind? ':' s)
  let (_, s) ← field 2 0 60 (← behind? ':' s)
  match s with
  | '.' :: rest =>
    let run := rest.takeWhile Char.isDigit
    if run.isEmpty then none else return rest.drop run.length
  | s => return s

/-- What is behind the distance of a time from the universal time, if one is given. -/
def afterOffset? (s : List Char) : Option (List Char) :=
  match s with
  | 'Z' :: rest | 'z' :: rest => some rest
  | '+' :: rest | '-' :: rest => do
    let (_, s) ← field 2 0 23 rest
    let (_, s) ← field 2 0 59 (← behind? ':' s)
    return s
  | s => some s

/-- Whether digits and a colon are in front. -/
def startsTime (s : List Char) : Bool :=
  match s with
  | a :: b :: ':' :: _ => a.isDigit && b.isDigit
  | _ => false

/-- Whether digits and a dash are in front. -/
def startsDate (s : List Char) : Bool :=
  (s.take 4).length == 4 && (s.take 4).all Char.isDigit && (s.drop 4).head? == some '-'

/-- A date, a time, or both. -/
def moment (s : List Char) : Option (Toml × List Char) :=
  if startsTime s then (afterTime? s).map fun rest => (.moment, rest)
  else do
    let rest ← afterDate? s
    let divided : Option (List Char) := match rest with
      | 'T' :: rest | 't' :: rest | ' ' :: rest => if startsTime rest then some rest else none
      | _ => none
    match divided with
    | none => return (.moment, rest)
    | some rest => return (.moment, ← afterOffset? (← afterTime? rest))

/-! ## Values -/

/-- Whether a character can stand in a number. -/
def isNumberChar (c : Char) : Bool := c.isAlphanum || c = '+' || c = '-' || c = '_' || c = '.'

/-- A number or a date. -/
def number (s : List Char) : Option (Toml × List Char) :=
  if startsTime s || startsDate s then moment s
  else do
    let run := s.takeWhile isNumberChar
    let v ← (float? run).or (integer? run)
    return (v, s.drop run.length)

/-- What is behind a word. -/
def word (w : String) (v : Toml) (s : List Char) : Option (Toml × List Char) :=
  if w.toList.isPrefixOf s then some (v, s.drop w.length) else none

/-- Assigns keys in a table in braces, which is complete then. -/
def inlineTable (pairs : List (List String × Toml)) : Option Toml := do
  let entries ← pairs.foldlM (fun entries (path, v) => assignPath path v entries) []
  return .table .inline entries

mutual

/-- A value; `room` says how many lists and tables may be nested yet, and `fuel` bounds the
reading. -/
def value : Nat → Nat → List Char → Option (Toml × List Char)
  | 0, _, _ => none
  | fuel + 1, room, s =>
    match s with
    | '"' :: _ | '\'' :: _ => (text s).map fun (t, rest) => (.text t, rest)
    | '[' :: rest =>
      if room == 0 then none
      else do
        let (items, rest) ← listItems fuel (room - 1) rest
        return (.list items, rest)
    | '{' :: rest =>
      if room == 0 then none
      else do
        let (pairs, rest) ←
          match skipBlanks rest with
          | '}' :: rest => some ([], rest)
          | rest => tablePairs fuel (room - 1) rest
        return (← inlineTable pairs, rest)
    | 't' :: _ => word "true" (.bool true) s
    | 'f' :: _ => word "false" (.bool false) s
    | _ => number s

/-- The items of a list, behind its bracket or a comma. -/
def listItems : Nat → Nat → List Char → Option (List Toml × List Char)
  | 0, _, _ => none
  | fuel + 1, room, s =>
    match skipLines (s.length + 1) s with
    | ']' :: rest => some ([], rest)
    | s => do
      let (v, rest) ← value fuel room s
      match skipLines (rest.length + 1) rest with
      | ']' :: rest => return ([v], rest)
      | ',' :: rest =>
        let (vs, rest) ← listItems fuel room rest
        return (v :: vs, rest)
      | _ => none

/-- The assignments in a table in braces, up to the closing brace. -/
def tablePairs : Nat → Nat → List Char → Option (List (List String × Toml) × List Char)
  | 0, _, _ => none
  | fuel + 1, room, s => do
    let (path, rest) ← key s
    let (v, rest) ← value fuel room (skipBlanks (← behind? '=' rest))
    match skipBlanks rest with
    | '}' :: rest => return ([(path, v)], rest)
    | ',' :: rest =>
      let (pairs, rest) ← tablePairs fuel room rest
      return ((path, v) :: pairs, rest)
    | _ => none

end

/-! ## Lines -/

/-- What has been read of a document: its settings and the header that assignments belong to. -/
structure State where
  entries : Entries := []
  header : List String := []

/-- Reads a header or an assignment. -/
def line (state : State) (s : List Char) : Option (State × List Char) :=
  match s with
  | '[' :: '[' :: rest => do
    let (path, rest) ← key rest
    let rest ← behind? ']' (← behind? ']' rest)
    return ({ entries := ← openNext path state.entries, header := path }, rest)
  | '[' :: rest => do
    let (path, rest) ← key rest
    let rest ← behind? ']' rest
    return ({ entries := ← openTable path state.entries, header := path }, rest)
  | s => do
    let (path, rest) ← key s
    let (v, rest) ← value (4 * s.length + 8) 79 (skipBlanks (← behind? '=' rest))
    return ({ state with entries := ← assignBelow state.header path v state.entries }, rest)

/-- Reads the lines of a document; `fuel` bounds their number. -/
def document : Nat → State → List Char → Option Entries
  | 0, _, _ => none
  | fuel + 1, state, s =>
    match skipBlanks s with
    | [] => some state.entries
    | '#' :: rest =>
      match restOfLine? ('#' :: rest) with
      | some rest => document fuel state rest
      | none => none
    | s =>
      match lineEnd? s with
      | some rest => document fuel state rest
      | none => do
        let (state, rest) ← line state s
        document fuel state (← restOfLine? rest)

end Reader

/-- Reads a document, behind a byte order mark if there is one. -/
def ofText? (source : List Char) : Option Entries :=
  let source := match source with
    | '\uFEFF' :: rest => rest
    | source => source
  Reader.document (source.length + 2) {} source

end BracketTemplate.Toml
