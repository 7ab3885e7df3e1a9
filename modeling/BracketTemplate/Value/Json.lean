import BracketTemplate.Value.Basic

/-!
# Values as JSON text

`Value.toJson` writes a value in one line, `Value.toPrettyJson` over several lines with two blanks
per level, and `Value.display` is the form that output and host functions use: the text itself for
a text, nothing for `nil`, the JSON text for a list or a map.

A double is written with its shortest digits, in one of two layouts. JSON text always shows that
the number is a double (`1.0`, `1e+16`) and is positional from `10 ^ -5` up to, but not including,
`10 ^ 16`; the display form is positional throughout and has no point when the double is an
integer. JSON has no word for a double that is not finite, so it writes `null`, as for `nil`.
-/

namespace BracketTemplate.Value

/-! ## Numbers -/

/-- An integer in decimal. -/
def intText (i : Int64) : String :=
  let n := i.toInt
  let digits := String.ofList (Decimal.digitsOf n.natAbs)
  if n < 0 then "-" ++ digits else digits

/-- The shortest decimal of a finite double in JSON layout, without its sign. -/
def jsonMagnitude (s : Decimal.Scientific) : List Char :=
  let lead := s.lead
  if s.digits == 0 then ['0', '.', '0']
  else if -5 ≤ lead && lead < 16 then
    if 0 ≤ s.exponent then s.positional ++ ['.', '0'] else s.positional
  else
    let digits := Decimal.digitsOf s.digits
    let mantissa := match digits with
      | d :: e :: rest => d :: '.' :: e :: rest
      | other => other
    let sign := if lead < 0 then '-' else '+'
    mantissa ++ 'e' :: sign :: Decimal.digitsOf lead.natAbs

/-- A double as JSON text. -/
def jsonFloat (x : Float) : String :=
  match Binary64.ofFloat x with
  | .finite negative mantissa exponent =>
    let text := jsonMagnitude (Decimal.shortest mantissa exponent)
    String.ofList (if negative then '-' :: text else text)
  | _ => "null"

/-- A double in display form. -/
def displayFloat (x : Float) : String :=
  match Binary64.ofFloat x with
  | .nan => "NaN"
  | .infinite negative => if negative then "-inf" else "inf"
  | .finite negative mantissa exponent =>
    let text := (Decimal.shortest mantissa exponent).positional
    String.ofList (if negative then '-' :: text else text)

/-! ## Texts -/

/-- A character of a JSON string. Control characters below the blank have short escapes where JSON
has them and four hexadecimal digits otherwise; everything else but the quote and the backslash
stands for itself. -/
def jsonChar (c : Char) : List Char :=
  if c = '"' then ['\\', '"']
  else if c = '\\' then ['\\', '\\']
  else if c = '\n' then ['\\', 'n']
  else if c = '\r' then ['\\', 'r']
  else if c = '\t' then ['\\', 't']
  else if c = '\x08' then ['\\', 'b']
  else if c = '\x0c' then ['\\', 'f']
  else if c.toNat < 0x20 then
    let digits := Nat.toDigits 16 c.toNat
    ['\\', 'u'] ++ List.replicate (4 - digits.length) '0' ++ digits
  else [c]

/-- A text as a JSON string. -/
def jsonString (s : String) : List Char :=
  '"' :: s.toList.flatMap jsonChar ++ ['"']

/-! ## Values -/

mutual

/-- A value as JSON text in one line, in characters. -/
def jsonChars : Value → List Char
  | nil => "null".toList
  | bool b => if b then "true".toList else "false".toList
  | int i => (intText i).toList
  | float x => (jsonFloat x).toList
  | str s => jsonString s
  | list items => '[' :: jsonItems items ++ [']']
  | map entries => '\x7b' :: jsonEntries entries ++ ['\x7d']

/-- Items separated by commas. -/
def jsonItems : List Value → List Char
  | [] => []
  | [v] => jsonChars v
  | v :: rest => jsonChars v ++ ',' :: jsonItems rest

/-- Entries separated by commas. -/
def jsonEntries : List (String × Value) → List Char
  | [] => []
  | [(k, v)] => jsonString k ++ ':' :: jsonChars v
  | (k, v) :: rest => jsonString k ++ ':' :: jsonChars v ++ ',' :: jsonEntries rest

end

/-- A new line with the indentation of a level. -/
def newLine (level : Nat) : List Char := '\n' :: List.replicate (2 * level) ' '

mutual

/-- A value as JSON text over several lines, at a level of indentation, in characters. -/
def prettyChars (level : Nat) : Value → List Char
  | nil => "null".toList
  | bool b => if b then "true".toList else "false".toList
  | int i => (intText i).toList
  | float x => (jsonFloat x).toList
  | str s => jsonString s
  | list [] => ['[', ']']
  | list items => '[' :: prettyItems (level + 1) items ++ newLine level ++ [']']
  | map [] => ['\x7b', '\x7d']
  | map entries => '\x7b' :: prettyEntries (level + 1) entries ++ newLine level ++ ['\x7d']

/-- Items, each on a line of its own. -/
def prettyItems (level : Nat) : List Value → List Char
  | [] => []
  | [v] => newLine level ++ prettyChars level v
  | v :: rest => newLine level ++ prettyChars level v ++ ',' :: prettyItems level rest

/-- Entries, each on a line of its own. -/
def prettyEntries (level : Nat) : List (String × Value) → List Char
  | [] => []
  | [(k, v)] => newLine level ++ jsonString k ++ ':' :: ' ' :: prettyChars level v
  | (k, v) :: rest =>
    newLine level ++ jsonString k ++ ':' :: ' ' :: prettyChars level v ++
      ',' :: prettyEntries level rest

end

/-- A value as JSON text in one line. -/
def toJson (v : Value) : String := String.ofList v.jsonChars

/-- A value as JSON text over several lines. -/
def toPrettyJson (v : Value) : String := String.ofList (v.prettyChars 0)

/-- The text that stands for a value in output. -/
def display : Value → String
  | nil => ""
  | bool b => if b then "true" else "false"
  | int i => intText i
  | float x => displayFloat x
  | str s => s
  | v => v.toJson

end BracketTemplate.Value
