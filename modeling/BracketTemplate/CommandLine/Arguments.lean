import BracketTemplate.Path.Basic

/-!
# Arguments

The arguments of a process name a command, perhaps with a file, and options. An option has a value:
the next argument, or what stands behind it (`--root=p`, `-r=p`, `-rp`). Behind an argument `--`
there are no options any more.

The option for the project can stand before the command and behind it; behind it counts more. Only
the option for variables may be given again. What does not fit is not told; the arguments
ask for something or they do not (`Invocation.ofArguments?`).
-/

namespace BracketTemplate

/-- What a process is to do. Without a file the standard input is read. -/
inductive Command where
  /-- Says whether a template compiles. -/
  | check (file : Option Path)
  /-- Evaluates a template, with variables, and with variables from a file. -/
  | render (file : Option Path) (bindings : List String) (variableFile : Option Path)
  /-- Lists the pages. -/
  | pages
  /-- Says whether all pages compile. -/
  | lint
  deriving DecidableEq, Repr, Inhabited

/-- Whether a command reads the standard input. -/
def Command.readsInput : Command → Bool
  | check none | render none .. => true
  | _ => false

/-- What the arguments of a process ask for. -/
structure Invocation where
  /-- The directory of the project. -/
  project : Path
  command : Command
  deriving DecidableEq, Repr, Inhabited

namespace CommandLine

/-- The form of the arguments, in short. -/
def usage : String :=
  "usage: [-r DIR] (check [FILE] | render [FILE] [--var NAME=VALUE] [--vars FILE] | pages | lint)"

/-! ## Pieces -/

/-- An option. -/
inductive Flag where
  | root
  | var
  | vars
  deriving DecidableEq, Repr

/-- The word of an option. -/
def Flag.word : Flag → List Char
  | root => "root".toList
  | var => "var".toList
  | vars => "vars".toList

/-- The letter of an option. -/
def Flag.letter? : Flag → Option Char
  | root => some 'r'
  | _ => none

/-- What an argument looks like. -/
inductive Piece where
  /-- Two dashes, the end of the options. -/
  | separator
  /-- An option by its word, with the value behind the equals sign. -/
  | word (name : List Char) (value : Option (List Char))
  /-- An option by its letter, with the value behind it. -/
  | letter (name : Char) (value : Option (List Char))
  /-- Anything else. -/
  | plain
  deriving DecidableEq, Repr

/-- What stands behind the first equals sign. -/
def valueBehind? (s : List Char) : Option (List Char) :=
  match s.dropWhile (· ≠ '=') with
  | [] => none
  | _ :: value => some value

/-- What an argument looks like. -/
def Piece.ofArgument (argument : String) : Piece :=
  match argument.toList with
  | ['-', '-'] => .separator
  | '-' :: '-' :: rest => .word (rest.takeWhile (· ≠ '=')) (valueBehind? rest)
  | ['-', name] => .letter name none
  | '-' :: name :: '=' :: value => .letter name (some value)
  | '-' :: name :: value => .letter name (some value)
  | _ => .plain

/-- The option that a piece spells, and the value that comes with it. -/
def Piece.flag? (known : List Flag) : Piece → Option (Flag × Option (List Char))
  | word name value => (known.find? (·.word = name)).map (·, value)
  | letter name value => (known.find? (·.letter? = some name)).map (·, value)
  | _ => none

/-! ## What is given -/

/-- What some arguments have given. -/
structure Given where
  root : Option Path := none
  bindings : List String := []
  variableFile : Option Path := none
  file : Option Path := none
  deriving DecidableEq, Repr, Inhabited

/-- A path, which is not empty and is given once. -/
def givePath (there : Option Path) (value : List Char) : Option Path :=
  if value.isEmpty || there.isSome then none else some ⟨value⟩

/-- Gives an option a value. -/
def Given.give (g : Given) (flag : Flag) (value : List Char) : Option Given :=
  match flag with
  | .root => (givePath g.root value).map fun p => { g with root := some p }
  | .vars => (givePath g.variableFile value).map fun p => { g with variableFile := some p }
  | .var => some { g with bindings := g.bindings ++ [String.ofList value] }

/-- Gives the file. -/
def Given.giveFile (g : Given) (value : List Char) : Option Given :=
  (givePath g.file value).map fun p => { g with file := some p }

/-- The arguments from the first that is no option on, with what those before it have given. -/
def readOptions (known : List Flag) : Given → List String → Option (Given × List String)
  | g, [] => some (g, [])
  | g, argument :: rest =>
    match Piece.ofArgument argument with
    | .plain | .separator => some (g, argument :: rest)
    | piece =>
      match piece.flag? known, rest with
      | none, _ => none
      | some (flag, some value), rest => (g.give flag value).bind (readOptions known · rest)
      | some (_, none), [] => none
      | some (flag, none), value :: rest =>
        match Piece.ofArgument value with
        | .plain => (g.give flag value.toList).bind (readOptions known · rest)
        | _ => none

/-- Whether what is left starts with the end of the options, and what is left then. -/
def afterSeparator : List String → Bool × List String
  | [] => (false, [])
  | argument :: rest =>
    if Piece.ofArgument argument = .separator then (true, rest) else (false, argument :: rest)

/-- Reads the arguments behind a command that has these options and no file. -/
def readPlain (known : List Flag) (arguments : List String) : Option Given := do
  let (g, rest) ← readOptions known {} arguments
  match afterSeparator rest with
  | (_, []) => some g
  | _ => none

/-- Reads the arguments behind a command that has these options and may have a file. -/
def readWithFile (known : List Flag) (arguments : List String) : Option Given := do
  let (g, rest) ← readOptions known {} arguments
  match afterSeparator rest with
  | (_, []) => some g
  | (true, [file]) => g.giveFile file.toList
  | (true, _) => none
  | (false, file :: rest) =>
    let g ← g.giveFile file.toList
    let (g, rest) ← readOptions known g rest
    match afterSeparator rest with
    | (_, []) => some g
    | _ => none

/-- The command of a name with the arguments behind it, and the project that these name. -/
def readCommand (name : String) (arguments : List String) : Option (Option Path × Command) :=
  match name with
  | "check" => do
    let g ← readWithFile [.root] arguments
    return (g.root, .check g.file)
  | "render" => do
    let g ← readWithFile [.root, .var, .vars] arguments
    return (g.root, .render g.file g.bindings g.variableFile)
  | "pages" => do return ((← readPlain [.root] arguments).root, .pages)
  | "lint" => do return ((← readPlain [.root] arguments).root, .lint)
  | _ => none

end CommandLine

open CommandLine in
/-- What arguments ask for. The project is the current directory unless it is given. -/
def Invocation.ofArguments? (arguments : List String) : Option Invocation := do
  let (g, rest) ← readOptions [.root] {} arguments
  match rest with
  | [] => none
  | name :: rest =>
    let (project, command) ← readCommand name rest
    return { project := (project.or g.root).getD (Path.ofString "."), command }

end BracketTemplate
