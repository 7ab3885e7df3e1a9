import BracketTemplate.Script.Numeral

/-!
# Patterns

A pattern is a sequence of items: single characters of a class with or without a repetition,
captures, references to captures, balanced pairs, and borders between classes. It is matched from a
place of a text on, by backtracking: an item that can match in several ways tries them in its order
of preference and keeps the first for which the rest of the pattern matches.

`Pattern.ofBytes` reads the items. A malformed pattern ends in a fault, which matters only if
matching gets there. `Pattern.match?` follows the items, so it ends with them.
-/

namespace BracketTemplate.Script

/-- A class of characters. -/
inductive CharClass where
  | any
  | byte (b : UInt8)
  /-- A class with a letter as its name; a capital letter stands for all other characters. -/
  | letter (name : UInt8)
  /-- The characters of some classes and ranges, or all others. -/
  | set (negated : Bool) (members : List CharClass)
  | range (low high : UInt8)
  deriving Repr, Inhabited

/-- How often a character is matched. -/
inductive Repetition where
  | once
  /-- As often as possible, or not at all. -/
  | greedy
  /-- As often as possible, at least once. -/
  | greedyOnce
  /-- As rarely as possible. -/
  | lazy
  /-- Once if possible. -/
  | optional
  deriving DecidableEq, Repr, Inhabited

/-- An item of a pattern. -/
inductive PatternItem where
  | single (c : CharClass) (repetition : Repetition)
  | openCapture
  /-- A capture of the place itself. -/
  | position
  | closeCapture
  /-- The text of a capture again. -/
  | reference (index : Nat)
  /-- A text from one character to another that balances it. -/
  | balanced (first last : UInt8)
  /-- A place where a class begins. -/
  | frontier (c : CharClass)
  | atEnd
  | fault (wording : String)
  deriving Repr, Inhabited

namespace CharClass

/-- Whether a character is printed with ink. -/
def isGraph (b : UInt8) : Bool := 33 ≤ b && b < 127

/-- Whether a character belongs to the class with a lower-case letter as its name; none when the
letter names no class. -/
def named? (name b : UInt8) : Option Bool :=
  if name == 97 then some (Byte.isAlpha b)
  else if name == 99 then some (b < 32 || b == 127)
  else if name == 100 then some (Byte.isDigit b)
  else if name == 103 then some (isGraph b)
  else if name == 108 then some (97 ≤ b && b ≤ 122)
  else if name == 112 then some (isGraph b && !Byte.isAlpha b && !Byte.isDigit b)
  else if name == 115 then some (Byte.isSpace b)
  else if name == 117 then some (65 ≤ b && b ≤ 90)
  else if name == 119 then some (Byte.isAlpha b || Byte.isDigit b)
  else if name == 120 then some (Byte.isHexDigit b)
  else none

mutual

/-- Whether a character belongs to a class. -/
def holds (b : UInt8) : CharClass → Bool
  | any => true
  | byte c => b == c
  | letter name =>
    match named? (Byte.toLower name) b with
    | some belongs => belongs != (65 ≤ name && name ≤ 90)
    | none => b == name
  | set negated members => holdsAny b members != negated
  | range low high => low ≤ b && b ≤ high

/-- Whether a character belongs to one of some classes. -/
def holdsAny (b : UInt8) : List CharClass → Bool
  | [] => false
  | c :: rest => holds b c || holdsAny b rest

end

end CharClass

namespace Pattern

/-! ## Reading -/

/-- The members of a set from what is written between its brackets. -/
def members : Nat → Bytes → List CharClass
  | 0, _ => []
  | _ + 1, [] => []
  | fuel + 1, 37 :: c :: rest => .letter c :: members fuel rest
  | fuel + 1, low :: 45 :: high :: rest => .range low high :: members fuel rest
  | fuel + 1, b :: rest => .byte b :: members fuel rest

/-- Splits what is written up to the bracket that closes a set; `done` is what was passed,
backwards. The first character does not close the set. -/
def setEnd? : Nat → Bytes → Bytes → Option (Bytes × Bytes)
  | 0, _, _ => none
  | _ + 1, _, [] => none
  | fuel + 1, done, 37 :: c :: rest => closes fuel (c :: 37 :: done) rest
  | fuel + 1, done, b :: rest => closes fuel (b :: done) rest
where
  closes (fuel : Nat) (done rest : Bytes) : Option (Bytes × Bytes) :=
    match rest with
    | 93 :: after => some (done.reverse, after)
    | _ => setEnd? fuel done rest

/-- Reads a class of characters at the front of a pattern. -/
def charClass : Bytes → Except String (CharClass × Bytes)
  | [] => .ok (.any, [])
  | 37 :: rest =>
    match rest with
    | [] => .error "malformed pattern (ends with '%')"
    | c :: rest => .ok (.letter c, rest)
  | 91 :: rest =>
    let (negated, inside) := match rest with
      | 94 :: inside => (true, inside)
      | inside => (false, inside)
    match setEnd? (inside.length + 1) [] inside with
    | none => .error "malformed pattern (missing ']')"
    | some (text, after) => .ok (.set negated (members text.length text), after)
  | 46 :: rest => .ok (.any, rest)
  | b :: rest => .ok (.byte b, rest)

/-- Reads the repetition behind a class. -/
def repetition : Bytes → Repetition × Bytes
  | 42 :: rest => (.greedy, rest)
  | 43 :: rest => (.greedyOnce, rest)
  | 45 :: rest => (.lazy, rest)
  | 63 :: rest => (.optional, rest)
  | rest => (.once, rest)

/-- Reads an item that is a character with its repetition. -/
def singleItem (text : Bytes) : PatternItem × Bytes :=
  match charClass text with
  | .error wording => (.fault wording, [])
  | .ok (c, rest) =>
    let (r, rest) := repetition rest
    (.single c r, rest)

/-- Reads one item at the front of a pattern that is not empty. -/
def item (text : Bytes) : PatternItem × Bytes :=
  match text with
  | 40 :: 41 :: rest => (.position, rest)
  | 40 :: rest => (.openCapture, rest)
  | 41 :: rest => (.closeCapture, rest)
  | [36] => (.atEnd, [])
  | 37 :: 98 :: rest =>
    match rest with
    | x :: y :: rest => (.balanced x y, rest)
    | _ => (.fault "malformed pattern (missing arguments to '%b')", [])
  | 37 :: 102 :: rest =>
    match rest with
    | 91 :: _ =>
      match charClass rest with
      | .ok (c, rest) => (.frontier c, rest)
      | .error wording => (.fault wording, [])
    | _ => (.fault "missing '[' after '%f' in pattern", [])
  | 37 :: d :: rest =>
    if Byte.isDigit d then (.reference (d.toNat - 48), rest) else singleItem text
  | _ => singleItem text

/-- Reads items; `fuel` bounds their number. -/
def items : Nat → Bytes → List PatternItem
  | 0, _ => []
  | _ + 1, [] => []
  | fuel + 1, text =>
    let (i, rest) := item text
    i :: items fuel rest

/-- The items of a pattern. -/
def ofBytes (text : Bytes) : List PatternItem := items text.length text

/-! ## Matching -/

/-- What is captured from a place on. -/
inductive Extent where
  | unfinished
  /-- The place alone. -/
  | position
  | length (n : Nat)
  deriving DecidableEq, Repr, Inhabited

/-- A capture. -/
structure Capture where
  start : Nat
  extent : Extent
  deriving Repr, Inhabited

/-- A place of a text: how much lies before it, the character right before it, and what follows. -/
structure Place where
  position : Nat
  before : UInt8
  rest : Bytes
  deriving Repr, Inhabited

/-- The place behind the next character. -/
def Place.step (p : Place) : Place :=
  match p.rest with
  | [] => p
  | b :: rest => ⟨p.position + 1, b, rest⟩

/-- The place some characters further on. -/
def Place.skip : Nat → Place → Place
  | 0, p => p
  | n + 1, p => Place.skip n p.step

/-- Whether the next character belongs to a class. -/
def Place.nextIs (c : CharClass) (p : Place) : Bool :=
  match p.rest with
  | [] => false
  | b :: _ => c.holds b

/-- The places that can be reached over characters of a class, the furthest first; `done` holds
those found already. -/
def runs (c : CharClass) : Nat → Place → List Place → List Place
  | 0, p, done => p :: done
  | fuel + 1, p, done => if p.nextIs c then runs c fuel p.step (p :: done) else p :: done

/-- The place behind a text that is balanced, behind its first character; `open` counts what is to
be closed yet. -/
def balancedEnd? (first last : UInt8) : Nat → Nat → Place → Option Place
  | 0, _, _ => none
  | fuel + 1, opened, p =>
    match p.rest with
    | [] => none
    | b :: _ =>
      if b == last then
        if opened == 1 then some p.step else balancedEnd? first last fuel (opened - 1) p.step
      else if b == first then balancedEnd? first last fuel (opened + 1) p.step
      else balancedEnd? first last fuel opened p.step

/-- The greatest number of captures. -/
def maxCaptures : Nat := 32

/-- Gives the last unfinished capture its extent. -/
def finishCapture (place : Nat) : List Capture → Option (List Capture)
  | [] => none
  | c :: rest =>
    match finishCapture place rest with
    | some rest => some (c :: rest)
    | none =>
      if c.extent == .unfinished then some (⟨c.start, .length (place - c.start)⟩ :: rest) else none

/-- What a match comes to: the place behind it with its captures, or nothing. -/
abbrev Match := Except String (Option (Place × List Capture))

/-- The first of some places from which a match goes on. -/
def firstMatch (go : Place → Match) : List Place → Match
  | [] => .ok none
  | p :: rest =>
    match go p with
    | .ok none => firstMatch go rest
    | found => found

/-- Matches items at a place of a text, with the captures so far. -/
def run (text : Bytes) : List PatternItem → Place → List Capture → Match
  | [], p, captures => .ok (some (p, captures))
  | i :: rest, p, captures =>
    match i with
    | .fault wording => .error wording
    | .atEnd => if p.rest.isEmpty then .ok (some (p, captures)) else .ok none
    | .position =>
      if maxCaptures ≤ captures.length then .error "too many captures"
      else run text rest p (captures ++ [⟨p.position, .position⟩])
    | .openCapture =>
      if maxCaptures ≤ captures.length then .error "too many captures"
      else run text rest p (captures ++ [⟨p.position, .unfinished⟩])
    | .closeCapture =>
      match finishCapture p.position captures with
      | none => .error "invalid pattern capture"
      | some captures => run text rest p captures
    | .reference n =>
      match if n == 0 then none else captures[n - 1]? with
      | some ⟨start, .length size⟩ =>
        let again := (text.drop start).take size
        if again.isPrefixOf p.rest then run text rest (p.skip size) captures else .ok none
      | some ⟨_, .position⟩ => .ok none
      | _ => .error s!"invalid capture index %{n}"
    | .balanced first last =>
      if p.rest.head? == some first then
        match balancedEnd? first last p.rest.length 1 p.step with
        | some p => run text rest p captures
        | none => .ok none
      else .ok none
    | .frontier c =>
      if !c.holds p.before && c.holds (p.rest.headD 0) then run text rest p captures
      else .ok none
    | .single c repetition =>
      match repetition with
      | .once => if p.nextIs c then run text rest p.step captures else .ok none
      | .optional =>
        if p.nextIs c then
          firstMatch (fun p => run text rest p captures) [p.step, p]
        else run text rest p captures
      | .greedy =>
        firstMatch (fun p => run text rest p captures) (runs c p.rest.length p [])
      | .greedyOnce =>
        if p.nextIs c then
          firstMatch (fun p => run text rest p captures) (runs c p.rest.length p.step [])
        else .ok none
      | .lazy =>
        firstMatch (fun p => run text rest p captures) (runs c p.rest.length p []).reverse

/-- The place of a text some characters from its start. -/
def placeAt (text : Bytes) (position : Nat) : Place :=
  ⟨position, if position == 0 then 0 else (text[position - 1]?).getD 0, text.drop position⟩

/-- The first match at a place or, unless anchored, at a later one: where it starts, where it ends,
and its captures. `fuel` bounds the number of places. -/
def search (text : Bytes) (pattern : List PatternItem) (anchored : Bool) :
    Nat → Place → Except String (Option (Nat × Place × List Capture))
  | 0, _ => .ok none
  | fuel + 1, p =>
    match run text pattern p [] with
    | .error e => .error e
    | .ok (some (after, captures)) => .ok (some (p.position, after, captures))
    | .ok none =>
      if anchored || p.rest.isEmpty then .ok none else search text pattern anchored fuel p.step

/-- A pattern with its anchor taken off. -/
def anchor (pattern : Bytes) : Bool × Bytes :=
  match pattern with
  | 94 :: rest => (true, rest)
  | rest => (false, rest)

end Pattern

end BracketTemplate.Script
