import BracketTemplate.Files.Writing
import BracketTemplate.Path.Confined
import BracketTemplate.Script.Library.HostArgument

/-!
# Functions on files

A file is opened under a name, read and written from a position on, and closed. What is written
waits until the file is flushed, read, moved in or closed. One file is the input and one the output
that functions without a file use.

Every name that a script gives is confined: it must not start with a tilde or have a segment `..`,
and it has to lie within the root, where names that are not absolute start. A name that is refused
fails like any error of the host; a file that cannot be opened, read or written gives `nil`, the
reason, and its number.
-/

namespace BracketTemplate.Script.Files

/-! ## Results -/

/-- The results for an operation that went wrong, about a name if there is one. -/
def faultResults (name : Option Bytes) (f : FileFault) : List Val :=
  let (number, wording) := (f.system?).getD (5, "Input/output error")
  let text := match name with
    | some name => name ++ utf8 s!": {wording}"
    | none => utf8 wording
  [.nil, .str text, .ofNat number]

/-! ## Names -/

/-- The path that a name is spelled as, behind the root when it is relative. -/
def named (root : Path) (name : String) : Path :=
  if (Path.ofString name).isAbsolute then Path.ofString name else root.join (Path.ofString name)

/-- The path that a name stands for below a root. -/
def confine (root : Path) (name : String) : Act Path :=
  match (Path.ofString name).checkSegments, (named root name).ensureWithin root with
  | .error e, _ => .failHost e.message
  | .ok (), .error e => .failHost e.message
  | .ok (), .ok () => pure (named root name)

/-! ## Opening -/

/-- A way to open a file, as far as it is spelled out. -/
structure Mode where
  opening : OpenMode
  canRead : Bool
  canWrite : Bool

/-- The mode that a text spells. -/
def Mode.ofText? (text : Bytes) : Option Mode :=
  let letters := text.takeWhile (· != 0)
  let (first, rest) := (letters.take 1, letters.drop 1)
  let (both, rest) := if rest.head? == some 43 then (true, rest.tail) else (false, rest)
  if !rest.all (· == 98) then none
  else if first == utf8 "r" then some ⟨if both then .update else .read, true, both⟩
  else if first == utf8 "w" then some ⟨.truncate, both, true⟩
  else if first == utf8 "a" then some ⟨.append, both, true⟩
  else none

/-- What the system takes of a path that it is handed, which ends in front of a zero character. -/
def untilZero (path : Path) : Path := ⟨path.chars.takeWhile (· != '\x00')⟩

/-- Opens a file. -/
def openAs (path : Path) (mode : Mode) : Act (Except FileFault Nat) := do
  let opened := untilZero path
  match ← Act.ask (.openFile opened mode.opening) with
  | .error f => return .error f
  | .ok () =>
    let id ← Act.update fun h => h.newFile
      { stream := .named opened, canRead := mode.canRead, canWrite := mode.canWrite
        appends := mode.opening == .append }
    return .ok id

/-- Opens a file that has to be opened. -/
def openOrFail (path : Path) (mode : Mode) : Act Nat := do
  match ← openAs path mode with
  | .ok id => return id
  | .error f =>
    let wording := ((f.system?).getD (5, "Input/output error")).2
    Site.throw {} (utf8 s!"cannot open file '{(untilZero path).text}' ({wording})")

/-- Opens a file by name and mode. -/
def «open» (a : Arguments) : Act (List Val) := do
  let name ← a.hostText 1
  let mode ← if a.isBlank 2 then pure "r" else a.hostText 2
  let path ← confine (← Act.read (·.root)) name
  match Mode.ofText? (utf8 mode) with
  | none => Site.throw {} (utf8 "bad argument #2 to '?' (invalid mode)")
  | some mode =>
    match ← openAs path mode with
    | .ok id => return [.file id]
    | .error f => return faultResults (some (utf8 (untilZero path).text)) f

/-! ## Writing -/

/-- Writes what waits to be written. -/
def flush (id : Nat) : Act (Except FileFault Unit) := do
  let f ← Act.read (·.file id)
  if f.unsaved.isEmpty then return .ok ()
  let saved (position : Nat) (stream : Stream) : Act Unit := Act.modify fun h =>
    h.setFile id { f with stream, position, unsaved := [] }
  let position := f.position + f.unsaved.length
  match f.stream with
  | .named path =>
    saved position f.stream
    Act.ask (.writeFile path (if f.appends then none else some f.position) f.unsaved)
  | .temporary content =>
    saved position (.temporary (FileTree.overwrite content f.position f.unsaved))
    return .ok ()
  | .standardOutput =>
    saved position f.stream
    Act.ask (.console .output f.unsaved)
    return .ok ()
  | .standardError =>
    saved position f.stream
    Act.ask (.console .error f.unsaved)
    return .ok ()
  | .standardInput => return .ok ()

/-- The text that is written for a value. Doubles are written with fourteen digits. -/
def writtenText (a : Arguments) (n : Nat) : Act Bytes :=
  match a.get n with
  | .float x =>
    let text := Val.floatText x
    let cut := text.take (text.length - 2)
    pure (if cut ++ utf8 ".0" == text then cut else text)
  | _ => a.str n

/-- Writes the arguments from a place on. -/
def write (a : Arguments) (id first : Nat) : Act (List Val) := do
  let f ← Act.read (·.file id)
  let pieces ← (List.range (a.count + 1 - first)).mapM fun i => writtenText a (first + i)
  if !f.canWrite then return faultResults none .badDescriptor
  Act.modify fun h => h.setFile id { f with unsaved := f.unsaved ++ pieces.flatten }
  if f.buffered then return [.file id]
  else
    match ← flush id with
    | .ok () => return [.file id]
    | .error fault => return faultResults none fault

/-! ## Reading -/

/-- All that a file holds. -/
def content (id : Nat) : Act (Except FileFault Bytes) := do
  let f ← Act.read (·.file id)
  if !f.canRead then return .error .badDescriptor
  let _ ← flush id
  match f.stream with
  | .named path => Act.ask (.readFile path)
  | .temporary content => return .ok content
  | .standardInput => return .ok []
  | _ => return .error .badDescriptor

/-- What is read at a time, and what is left behind it. None when there is nothing to read. -/
abbrev Reading := Option Val × Bytes

/-- A line, with its end if `keep`. -/
def readLine (keep : Bool) (text : Bytes) : Reading :=
  let line := text.takeWhile (· != 10)
  match text.drop line.length with
  | _ :: rest => (some (.str (if keep then line ++ [10] else line)), rest)
  | [] => (if line.isEmpty then none else some (.str line), [])

/-- The characters of a numeral at the front of a text, `200` at most, with what is behind them. -/
def numeralText (text : Bytes) : Bytes × Bytes :=
  let one (set : Bytes) (t : Bytes) : Bytes := (t.take 1).filter set.contains
  let sign := one (utf8 "-+") text
  let rest := text.drop sign.length
  let zero := one (utf8 "0") rest
  let rest := rest.drop zero.length
  let mark := if zero.isEmpty then [] else one (utf8 "xX") rest
  let isHex := !mark.isEmpty
  let rest := rest.drop mark.length
  let isDigit := if isHex then Byte.isHexDigit else Byte.isDigit
  let whole := rest.takeWhile isDigit
  let rest := rest.drop whole.length
  let point := one (utf8 ".") rest
  let fraction := if point.isEmpty then [] else (rest.drop 1).takeWhile isDigit
  let rest := rest.drop (point.length + fraction.length)
  let hasDigits := (!zero.isEmpty && !isHex) || !whole.isEmpty || !fraction.isEmpty
  let exponent := if hasDigits then one (utf8 (if isHex then "pP" else "eE")) rest else []
  let rest := rest.drop exponent.length
  let exponentSign := if exponent.isEmpty then [] else one (utf8 "-+") rest
  let rest := rest.drop exponentSign.length
  let power := if exponent.isEmpty then [] else rest.takeWhile Byte.isDigit
  let rest := rest.drop power.length
  (sign ++ zero ++ mark ++ whole ++ point ++ fraction ++ exponent ++ exponentSign ++ power, rest)

/-- A number. -/
def readNumber (text : Bytes) : Reading :=
  let (numeral, rest) := numeralText (text.dropWhile Byte.isSpace)
  if 200 < numeral.length then (none, rest)
  else ((Numeral.read? numeral).map Val.ofNumber, rest)

/-- So many bytes at most. -/
def readBytes (n : Nat) (text : Bytes) : Reading :=
  if n == 0 then (if text.isEmpty then none else some (.str []), text)
  else (if text.isEmpty then none else some (.str (text.take n)), text.drop n)

/-- Reads by the format that an argument gives. -/
def readBy (a : Arguments) (n : Nat) (text : Bytes) : Act Reading := do
  match a.get n with
  | .int _ | .float _ => return readBytes (← a.int n).toUInt64.toNat text
  | _ =>
    let format ← a.str n
    let letter := if format.head? == some 42 then format.tail.head? else format.head?
    match letter.map fun b => Char.ofNat b.toNat with
    | some 'n' => return readNumber text
    | some 'l' => return readLine false text
    | some 'L' => return readLine true text
    | some 'a' => return (some (.str text), [])
    | _ => a.fail n (utf8 "invalid format")

/-- Reads by the formats of so many arguments from a place on, until there is nothing to read. -/
def readAll (a : Arguments) : Nat → Nat → Bytes → Act (List Val × Bytes)
  | 0, _, text => pure ([], text)
  | count + 1, n, text => do
    match ← readBy a n text with
    | (none, rest) => return ([.nil], rest)
    | (some v, rest) =>
      let (vs, rest) ← readAll a count (n + 1) rest
      return (v :: vs, rest)

/-- Reads from a file by the formats from a place on, a line when there are none. -/
def read (a : Arguments) (id first : Nat) : Act (List Val) := do
  match ← content id with
  | .error f => return faultResults none f
  | .ok content =>
    let f ← Act.read (·.file id)
    let text := content.drop f.position
    let (values, rest) ← if a.count < first then
        let (v, rest) := readLine false text
        pure ([v.getD .nil], rest)
      else readAll a (a.count + 1 - first) first text
    Act.modify fun h =>
      h.setFile id { f with position := f.position + (text.length - rest.length) }
    return values

/-! ## Closing -/

/-- Closes a file. -/
def close (id : Nat) : Act (List Val) := do
  let f ← Act.read (·.file id)
  match f.stream with
  | .standardInput | .standardOutput | .standardError =>
    return [.nil, .ofString "cannot close standard file"]
  | _ =>
    let result ← flush id
    Act.modify fun h => h.setFile id { h.file id with isOpen := false }
    match result with
    | .ok () => giveBool true
    | .error f => return faultResults none f

/-! ## Files as arguments -/

/-- The file in front of the other arguments, open or closed. -/
def anyFile (a : Arguments) : Act Nat :=
  match a.get 1 with
  | .file id => pure id
  | _ => a.failType 1 "FILE*"

/-- The file in front of the other arguments. -/
def openFile (a : Arguments) : Act Nat := do
  let id ← anyFile a
  if ← Act.read fun h => (h.file id).isOpen then return id
  else a.site.throw (utf8 "attempt to use a closed file")

/-- The file that is read from unless another is named. -/
def currentInput (a : Arguments) : Act Nat := do
  let id ← Act.read (·.input)
  if ← Act.read fun h => (h.file id).isOpen then return id
  else a.site.throw (utf8 "default input file is closed")

/-- The file that is written to unless another is named. -/
def currentOutput (a : Arguments) : Act Nat := do
  let id ← Act.read (·.output)
  if ← Act.read fun h => (h.file id).isOpen then return id
  else a.site.throw (utf8 "default output file is closed")

/-- The arguments of a function that confines the name in front of them, and the path that the name
stands for. -/
def confinedName (a : Arguments) : Act (Option Path) := do
  let name? := match a.get 1 with
    | .str s => some (s.text, true)
    | .int i => some ((Val.intText i).text, false)
    | .float x => some ((Val.floatText x).text, false)
    | _ => none
  match name? with
  | none => return none
  | some (name, true) => return some (← confine (← Act.read (·.root)) name)
  | some (name, false) => return some (Path.ofString name)

/-- Names a file that is read from or written to from now on, and gives the one that is. -/
def redirect (a : Arguments) (mode : Mode) (current : Heap → Nat) (use : Heap → Nat → Heap) :
    Act (List Val) := do
  let path? ← confinedName a
  if !a.isBlank 1 then
    let id ← match path? with
      | some path => openOrFail path mode
      | none => openFile { a with site := {} }
    Act.modify fun h => use h id
  .read fun h => [.file (current h)]

/-! ## Lines -/

/-- A function that reads by some formats at every call. -/
def linesOf (a : Arguments) (id : Nat) (closes : Bool) : Act Val := do
  let formats := a.values.drop 1
  if 250 < formats.length then a.fail 252 (utf8 "too many arguments")
  let native ← Act.update fun h => h.newNative (.lines id formats closes)
  return .native native

/-- A function that goes through the lines of a named file, and closes it at the end. -/
def lines (a : Arguments) : Act (List Val) := do
  let path? ← confinedName a
  let host : Arguments := { a with site := {} }
  match path? with
  | some path =>
    let id ← openOrFail path ⟨.read, true, false⟩
    return [← linesOf host id true, .nil, .nil, .file id]
  | none =>
    if !a.isBlank 1 then host.failType 1 "string"
    let id ← openFile { host with values := [.file (← Act.read (·.input))] }
    return [← linesOf host id false]

/-- Reads the next lines of a file. -/
def linesStep (site : Site) (id : Nat) (formats : List Val) (closes : Bool) : Act (List Val) := do
  if !(← Act.read fun h => (h.file id).isOpen) then site.throw (utf8 "file is already closed")
  let values ← read ⟨site, .nil :: formats⟩ id 2
  if (values.headD .nil).truthy then return values
  match values with
  | _ :: .str wording :: _ => site.throw wording
  | _ =>
    if closes then
      let _ ← close id
    return []

/-! ## Positions -/

/-- Moves to another position. -/
def seek (a : Arguments) : Act (List Val) := do
  let id ← openFile a
  let whence ← a.option 2 (some "cur") ["set", "cur", "end"]
  let distance := (← a.optInt 3 0).toInt
  let _ ← flush id
  let f ← Act.read (·.file id)
  let size ← match f.stream with
    | .named path => do
      match ← Act.ask (.readFile path) with
      | .ok content => pure content.length
      | .error _ => pure 0
    | .temporary content => pure content.length
    | _ => pure 0
  let isPipe := match f.stream with
    | .named _ | .temporary _ => false
    | _ => true
  let base := match whence with
    | 0 => 0
    | 1 => if f.appends && f.position < size && !f.canRead then size else f.position
    | _ => size
  let target := Int.ofNat base + distance
  if isPipe then return [.nil, .ofString "Illegal seek", .int 29]
  if target < 0 then return faultResults none .invalidArgument
  Act.modify fun h => h.setFile id { f with position := target.toNat }
  giveNat target.toNat

/-! ## The functions -/

/-- Flushes a file. -/
def flushed (id : Nat) : Act (List Val) := do
  match ← flush id with
  | .ok () => giveBool true
  | .error f => return faultResults none f

/-- Runs a function on files. -/
def run (f : IoFunction) (a : Arguments) : Act (List Val) :=
  match f with
  | .close => do
    match a.values with
    | [] => do
      let id ← Act.read (·.output)
      close (← openFile { a with values := [.file id] })
    | _ => close (← openFile a)
  | .flush => do flushed (← currentOutput a)
  | .input =>
    (redirect a ⟨.read, true, false⟩ (·.input) fun h id => { h with input := id }).asHost
  | .lines => (lines a).asHost
  | .open => («open» a).asHost
  | .output =>
    (redirect a ⟨.truncate, false, true⟩ (·.output) fun h id => { h with output := id }).asHost
  | .read => do read a (← currentInput a) 1
  | .tmpfile => .update fun h =>
    let (id, h) := h.newFile { stream := .temporary [], canRead := true, canWrite := true }
    ([.file id], h)
  | .type => do
    match ← a.any 1 with
    | .file id => .read fun h =>
      [.ofString (if (h.file id).isOpen then "file" else "closed file")]
    | _ => return [.nil]
  | .write => do write a (← currentOutput a) 1
  | .fileClose => do close (← openFile a)
  | .fileFlush => do flushed (← openFile a)
  | .fileLines => do return [← linesOf a (← openFile a) false]
  | .fileRead => do read a (← openFile a) 2
  | .fileSeek => seek a
  | .fileSetvbuf => do
    let id ← openFile a
    let mode ← a.option 2 none ["no", "full", "line"]
    Act.modify fun h => h.setFile id { h.file id with buffered := mode == 1 }
    giveBool true
  | .fileWrite => do write a (← openFile a) 2
  | .fileText => do
    let id ← anyFile a
    .read fun h =>
      if (h.file id).isOpen then [.str (utf8 "file (" ++ Operation.addressText id ++ [41])]
      else [.ofString "file (closed)"]
  | .fileRelease => do
    let id ← anyFile a
    if ← Act.read fun h => (h.file id).isOpen then
      let _ ← close id
    return []

/-- The functions under their names. -/
def names : List (String × IoFunction) :=
  [("close", .close), ("flush", .flush), ("input", .input), ("lines", .lines), ("open", .open),
    ("output", .output), ("read", .read), ("tmpfile", .tmpfile), ("type", .type),
    ("write", .write)]

/-- The functions of files under their names. -/
def methods : List (String × IoFunction) :=
  [("close", .fileClose), ("flush", .fileFlush), ("lines", .fileLines), ("read", .fileRead),
    ("seek", .fileSeek), ("setvbuf", .fileSetvbuf), ("write", .fileWrite)]

/-- The functions of files for events. -/
def events : List (String × IoFunction) :=
  [("__close", .fileRelease), ("__gc", .fileRelease), ("__tostring", .fileText)]

/-- The files that are open from the start. -/
def standardFiles : List FileHandle :=
  [{ stream := .standardInput, canRead := true },
    { stream := .standardOutput, canWrite := true },
    { stream := .standardError, canWrite := true, buffered := false }]

/-- Writes what waits to be written to named files, from the last opened on. -/
def flushFrom : Nat → Act Unit
  | 0 => pure ()
  | n + 1 => do
    let f ← Act.read (·.file n)
    match f.stream with
    | .named _ =>
      let _ ← flush n
    | _ => pure ()
    flushFrom n

/-- Writes what waits to be written when a script ends. What waits for the standard output stays
there until the process ends. -/
def finish : Act Unit := do
  flushFrom (← Act.read (·.files.size))
  let f ← Act.read (·.file 1)
  if !f.unsaved.isEmpty then Act.ask (.console .outputAtEnd f.unsaved)

end BracketTemplate.Script.Files
