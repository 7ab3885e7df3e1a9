import BracketTemplate.Text.Utf8

/-!
# The names of the builtin functions

The functions that a script does not define itself, grouped by the table they stand in. Here they
are only named; what they do is the matter of the libraries.
-/

namespace BracketTemplate.Script

/-- Functions that stand among the global variables. -/
inductive BaseFunction where
  | assert | collectgarbage | error | getmetatable | ipairs | load | next | pairs | pcall
  | rawequal | rawget | rawlen | rawset | select | setmetatable | tonumber | tostring | type
  | warn | xpcall
  /-- The step of a traversal by index, which `ipairs` gives. -/
  | ipairsStep
  deriving DecidableEq, Repr, Inhabited

/-- Functions on strings. -/
inductive StringFunction where
  | byte | char | dump | find | format | gmatch | gsub | len | lower | match | pack | packsize
  | rep | reverse | sub | unpack | upper
  /-- Arithmetic on strings that are numerals, which operators fall back to. -/
  | arithmetic (event : String)
  deriving DecidableEq, Repr, Inhabited

/-- Functions on sequences. -/
inductive TableFunction where
  | concat | insert | move | pack | remove | sort | unpack
  deriving DecidableEq, Repr, Inhabited

/-- Functions on numbers. -/
inductive MathFunction where
  | abs | acos | asin | atan | ceil | cos | deg | exp | floor | fmod | log | max | min | modf
  | rad | random | randomseed | sin | sqrt | tan | tointeger | type | ult
  deriving DecidableEq, Repr, Inhabited

/-- Functions on text in UTF-8. -/
inductive Utf8Function where
  | char | codepoint | codes | len | offset
  /-- The step of a traversal by character; `lax` admits code points that are no characters. -/
  | codesStep (lax : Bool)
  deriving DecidableEq, Repr, Inhabited

/-- Functions on the time and the surroundings. -/
inductive OsFunction where
  | clock | date | difftime | getenv | setlocale | time
  deriving DecidableEq, Repr, Inhabited

/-- Functions on files. Those that take the name of a file keep it below the root. -/
inductive IoFunction where
  | close | flush | input | lines | open | output | read | tmpfile | type | write
  | fileClose | fileFlush | fileLines | fileRead | fileSeek | fileSetvbuf | fileWrite
  | fileText
  /-- Closes a file that is still open. -/
  | fileRelease
  deriving DecidableEq, Repr, Inhabited

/-- Functions on coroutines. -/
inductive CoroutineFunction where
  | close | create | isyieldable | resume | running | status | wrap | yield
  deriving DecidableEq, Repr, Inhabited

/-- The forms in which a template writes values. -/
inductive OutputForm where
  | print | puts | putc | printf | write | dump | prettyDump
  deriving DecidableEq, Repr, Inhabited

/-- Functions that reach the template a script belongs to. -/
inductive HostFunction where
  /-- Writes the text of an instruction. -/
  | text
  /-- Moves to the root directory of an instruction. -/
  | rootdirAt
  /-- Moves to the current directory of an instruction. -/
  | workdirAt
  /-- Writes the value of an expression. -/
  | printValue (raw : Bool)
  /-- Writes values in some form, escaped or as they are. -/
  | output (form : OutputForm) (raw : Bool)
  | «include»
  | rootdir
  | workdir
  | get
  | set
  /-- A function that was registered under a name. -/
  | registered (name : String)
  deriving DecidableEq, Repr, Inhabited

/-- A builtin function. -/
inductive Builtin where
  | base (f : BaseFunction)
  | string (f : StringFunction)
  | table (f : TableFunction)
  | math (f : MathFunction)
  | utf8 (f : Utf8Function)
  | os (f : OsFunction)
  | io (f : IoFunction)
  | coroutine (f : CoroutineFunction)
  | host (f : HostFunction)
  deriving DecidableEq, Repr, Inhabited

end BracketTemplate.Script
