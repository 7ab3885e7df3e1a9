import BracketTemplate.Template.Instruction
import BracketTemplate.Text.WhiteSpace

/-!
# Delimiters

What stands at the front of a text, according to the delimiter grammar:

* an include, `[<name]` or `[^name]`, with white space around the name and a `-` at either end for
  trimming (`Delimiter.include?`);
* an opening bracket with a marker, `[=`, `[!` or `[#`, and the white space behind it
  (`Delimiter.marked?`);
* a plain opening bracket (`Delimiter.open?`);
* the rest of a line: blanks and a line end (`Delimiter.lineEnd?`).

The name of an include is everything up to the first `]` without the padding, and one `-` before
that `]` is a trim mark, not part of the name, unless nothing else is left for the name. A name has
at least one character: where there is nothing but white space, its last character is the name.
-/

namespace BracketTemplate.Delimiter

/-- A text without the white space it ends in. -/
def trimEnd (text : List Char) : List Char := (text.reverse.dropWhile isWhiteSpace).reverse

/-- An include as it is written. -/
structure Include where
  trimLeft : Bool
  name : List Char
  trimRight : Bool
  /-- How many characters it takes. -/
  length : Nat
  deriving DecidableEq, Repr

/-- The name and the trim mark in what stands between the marker of an include and its closing
bracket. -/
def includeName? (body : List Char) : Option (List Char × Bool) :=
  match body.dropWhile isWhiteSpace with
  | [] => body.getLast?.map fun c => ([c], false)
  | inner =>
    if inner.getLast? = some '-' && inner ≠ ['-'] then some (trimEnd inner.dropLast, true)
    else some (trimEnd inner, false)

/-- Takes a trim mark. -/
def dash : List Char → Bool × List Char
  | '-' :: rest => (true, rest)
  | rest => (false, rest)

/-- An include at the front of a text. -/
def include? (text : List Char) : Option Include :=
  match text with
  | '[' :: rest =>
    let (trimLeft, rest) := dash rest
    match rest with
    | marker :: rest =>
      if marker = '<' || marker = '^' then
        let body := rest.takeWhile (· ≠ ']')
        if body.length = rest.length then none
        else
          (includeName? body).map fun (name, trimRight) =>
            ⟨trimLeft, name, trimRight, trimLeft.toNat + body.length + 3⟩
      else none
    | [] => none
  | _ => none

/-- An opening bracket as it is written. -/
structure Opening where
  trim : Bool
  region : Region
  /-- How many characters it takes. -/
  length : Nat
  deriving DecidableEq, Repr

/-- The region that a marker stands for. -/
def markerRegion? (c : Char) : Option Region :=
  if c = '=' then some .escaped
  else if c = '!' then some .raw
  else if c = '#' then some .comment
  else none

/-- An opening bracket with a marker, and the white space behind it, at the front of a text. -/
def marked? (text : List Char) : Option Opening :=
  match text with
  | '[' :: rest =>
    let (trim, rest) := dash rest
    match rest with
    | marker :: rest =>
      (markerRegion? marker).map fun region =>
        ⟨trim, region, trim.toNat + (rest.takeWhile isWhiteSpace).length + 2⟩
    | [] => none
  | _ => none

/-- A plain opening bracket at the front of a text. -/
def open? (text : List Char) : Option Opening :=
  match text with
  | '[' :: rest => some ⟨(dash rest).1, .statement, (dash rest).1.toNat + 1⟩
  | _ => none

/-- The number of characters of the blanks and the line end at the front of a text. -/
def lineEnd? (text : List Char) : Option Nat :=
  let blanks := text.takeWhile fun c => c = ' ' || c = '\t'
  match text.drop blanks.length with
  | '\n' :: _ => some (blanks.length + 1)
  | '\r' :: '\n' :: _ => some (blanks.length + 2)
  | _ => none

/-- A character that literal text consists of. -/
def isText (c : Char) : Bool := c ≠ '\\' && c ≠ '[' && c ≠ ']'

/-- A character that code consists of, besides brackets, backslashes and dashes. -/
def isCode (c : Char) : Bool := c ≠ '\\' && c ≠ '[' && c ≠ ']' && c ≠ '-'

/-! ## Patterns

The same recognisers as patterns that tell their groups. -/

/-- What can be looked for at a cursor. -/
inductive Pattern where
  | includeDelimiter
  | markedOpening
  | plainOpening
  | lineEnd
  /-- One or more characters of a class. -/
  | run (p : Char → Bool)
  /-- A text. -/
  | literal (text : List Char)

/-- Looks for a pattern at the front of a text and tells what it matched, then its groups. A match
has at least one character. -/
def Pattern.groups? (pattern : Pattern) (text : List Char) : Option (List (List Char)) :=
  let mark (trim : Bool) : List Char := if trim then ['-'] else []
  match pattern with
  | .includeDelimiter =>
    (include? text).map fun d => [text.take d.length, mark d.trimLeft, d.name, mark d.trimRight]
  | .markedOpening =>
    (marked? text).map fun d =>
      [text.take d.length, mark d.trim, (text.drop (1 + d.trim.toNat)).take 1]
  | .plainOpening => (open? text).map fun d => [text.take d.length, mark d.trim]
  | .lineEnd => (lineEnd? text).map fun n => [text.take n]
  | .run p =>
    let matched := text.takeWhile p
    if matched.isEmpty then none else some [matched]
  | .literal expected =>
    if expected.isPrefixOf text && !expected.isEmpty then some [expected] else none

end BracketTemplate.Delimiter
