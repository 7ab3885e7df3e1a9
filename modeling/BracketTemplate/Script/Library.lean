import BracketTemplate.Script.Library.Base
import BracketTemplate.Script.Library.Coroutines
import BracketTemplate.Script.Library.Files
import BracketTemplate.Script.Library.Host
import BracketTemplate.Script.Library.Numbers
import BracketTemplate.Script.Library.Strings
import BracketTemplate.Script.Library.Tables
import BracketTemplate.Script.Library.Time
import BracketTemplate.Script.Library.Unicode

/-!
# The builtin functions

What a builtin function does, and the name that errors give it where the call does not tell one: its
name in the table it stands in.
-/

namespace BracketTemplate.Script

/-- The name of a member of a library. -/
def memberName {α : Type} [BEq α] (library : String) (names : List (String × α)) (f : α) :
    Option String :=
  (names.find? fun n => n.2 == f).map fun n => library ++ n.1

/-- The name of a builtin function that stands in a table. Functions on files that take names are
known to nobody. -/
def Builtin.name? : Builtin → Option String
  | .base f => memberName "" Base.names f
  | .string f => memberName "string." Strings.names f
  | .table f => memberName "table." Tables.names f
  | .math f => memberName "math." Numbers.names f
  | .utf8 f => memberName "utf8." Unicode.names f
  | .os f => memberName "os." Time.names f
  | .coroutine f => memberName "coroutine." Coroutines.names f
  | .io f => memberName "io." [("close", .close), ("flush", .flush), ("read", .read),
      ("tmpfile", .tmpfile), ("type", .type), ("write", .write)] f
  | .host _ => none

/-- The site of a call with the name of the function, where the call does not tell one. -/
def Builtin.named (f : Builtin) (site : Site) : Site :=
  match site.name with
  | some _ => site
  | none => { site with name := f.name?.map fun name => ("function", BracketTemplate.utf8 name) }

/-- Runs a builtin function. -/
def Builtin.run (f : Builtin) (site : Site) (args : List Val) : Act (List Val) :=
  let a : Arguments := ⟨f.named site, args⟩
  match f with
  | .base f => Base.run f a
  | .string f => Strings.run f a
  | .table f => Tables.run f a
  | .math f => Numbers.run f a
  | .utf8 f => Unicode.run f a
  | .os f => Time.run f a
  | .io f => Files.run f a
  | .coroutine f => Coroutines.run f a
  | .host f => Host.run f a

/-- Runs a builtin function with a state. -/
def Native.run (id : Nat) (n : Native) (site : Site) (args : List Val) : Act (List Val) :=
  match n with
  | .matches text pattern position lastEnd =>
    Strings.gmatchStep site id text pattern position lastEnd
  | .lines file formats closes => Files.linesStep site file formats closes
  | .wrapped thread => Coroutines.resumeWrapped site thread args

end BracketTemplate.Script
