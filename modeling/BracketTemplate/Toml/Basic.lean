import BracketTemplate.Decimal.Binary64

/-!
# Documents of settings

A document is a table of settings by key; a setting is a text, a number, a truth value, a date or
time, a list, or a table again. Tables come from headers, from keys with dots and from values in
braces, and every table is written in one place only:

* a header opens a table that is not there, or one that is there only because a longer header went
  through it;
* a key with dots opens tables that other keys with dots may add to, but it does not add to a table
  that has a header;
* a table in braces is complete;
* no key is assigned twice.
-/

namespace BracketTemplate

/-- Where a table comes from. -/
inductive TomlTable where
  /-- It has a header. -/
  | header
  /-- A longer header goes through it. -/
  | implied
  /-- A key with dots goes through it. -/
  | dotted
  /-- It stands in braces. -/
  | inline
  deriving DecidableEq, Repr

/-- A setting. -/
inductive Toml where
  | text (s : String)
  | integer (n : Int64)
  | float (x : Float)
  | bool (b : Bool)
  /-- A date, a time, or both. -/
  | moment
  | list (items : List Toml)
  | table (origin : TomlTable) (entries : List (String × Toml))
  /-- Tables under one header each, written several times. -/
  | tables (all : List (List (String × Toml)))
  deriving Inhabited

namespace Toml

/-- The settings of a table. -/
abbrev Entries := List (String × Toml)

/-- Writes the setting of a key in place. -/
def replace (key : String) (v : Toml) (entries : Entries) : Entries :=
  entries.map fun e => if e.1 == key then (key, v) else e

/-- Changes the table that a path of keys leads to. Tables that are not there are opened, as tables
of a key with dots when `byKey`. Of tables that are written several times the last is meant. The
change learns whether the table comes from a key with dots. -/
def within (byKey : Bool) (change : Bool → Entries → Option Entries) :
    List String → Bool → Entries → Option Entries
  | [], isDotted, entries => change isDotted entries
  | key :: rest, _, entries =>
    match entries.lookup key with
    | none => do
      let inner ← within byKey change rest byKey []
      return entries ++ [(key, table (if byKey then .dotted else .implied) inner)]
    | some (table origin inner) =>
      if origin == .inline || (byKey && origin == .header) then none
      else do
        let inner ← within byKey change rest (origin == .dotted) inner
        return replace key (table origin inner) entries
    | some (tables all) => do
      let last ← all.getLast?
      let last ← within byKey change rest false last
      return replace key (tables (all.dropLast ++ [last])) entries
    | some _ => none

/-- Assigns a key that has no setting. A key with dots belongs to a table of such keys, and a key
without to a table of its own. -/
def assign (hasDots : Bool) (key : String) (v : Toml) (isDotted : Bool) (entries : Entries) :
    Option Entries :=
  if isDotted != hasDots || (entries.lookup key).isSome then none else some (entries ++ [(key, v)])

/-- Assigns a key, given by its parts, of a table. -/
def assignPath (path : List String) (v : Toml) (entries : Entries) : Option Entries :=
  match path.reverse with
  | [] => none
  | key :: above => within true (assign (!above.isEmpty) key v) above.reverse false entries

/-- Opens the table of a header. -/
def openTable (path : List String) (entries : Entries) : Option Entries :=
  match path.reverse with
  | [] => none
  | key :: above =>
    within false (fun _ entries =>
      match entries.lookup key with
      | none => some (entries ++ [(key, table .header [])])
      | some (table .implied inner) => some (replace key (table .header inner) entries)
      | some _ => none) above.reverse false entries

/-- Opens one more of the tables of a header. -/
def openNext (path : List String) (entries : Entries) : Option Entries :=
  match path.reverse with
  | [] => none
  | key :: above =>
    within false (fun _ entries =>
      match entries.lookup key with
      | none => some (entries ++ [(key, tables [[]])])
      | some (tables all) => some (replace key (tables (all ++ [[]])) entries)
      | some _ => none) above.reverse false entries

/-- Assigns a key of the table of a header. -/
def assignBelow (header path : List String) (v : Toml) (entries : Entries) : Option Entries :=
  within false (fun _ entries => assignPath path v entries) header false entries

end Toml

end BracketTemplate
