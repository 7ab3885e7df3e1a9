import BracketTemplate.Script.Lexer
import BracketTemplate.Script.Scope

/-!
# From tokens to trees

A recursive descent over the tokens of a script, with one token in hand. A fault names the line of
the token in hand and shows it, unless it is about something behind: an assignment to a constant, a
jump without a label.

Operators bind by two strengths: how strongly an operator holds on to what stands before it, and how
strongly to what follows. An operator whose second strength is the smaller one groups to the right.

Each part gets the line that a report of its failure names. A call has the line of its opening
parenthesis, an arithmetic operator its own, a comparison the line its right side ends on. An index
has the line that was reached when its value is asked for (`Expr.settle`).

Every function takes fuel, which bounds the depth of the recursion; a script of `n` bytes never
needs more than `Parser.fuelFor n`. Apart from that, statements and expressions nest `199` deep at
most.
-/

namespace BracketTemplate.Script

/-- Why a script has no tree. -/
inductive ParseFault where
  | malformed (fault : SyntaxFault)
  /-- It is nested too deeply. -/
  | tooDeep
  deriving Repr, Inhabited

/-- A parser at work. -/
structure Parser where
  /-- The token in hand. -/
  current : Lexeme
  /-- What follows it. -/
  rest : Lexemes
  /-- The line of the last token that was taken. -/
  takenLine : Nat
  /-- The functions that are being parsed, the innermost first. -/
  scopes : List Scope
  /-- How deep statements and expressions are nested. -/
  depth : Nat

namespace Parser

/-- A step of a parser. -/
abbrev Parse := StateT Parser (Except ParseFault)

/-- The depth that is too deep. -/
def maxDepth : Nat := 200

/-! ## Faults -/

/-- Fails with a wording that stands alone. -/
def refuse {α : Type} (wording : Bytes) : Parse α := fun p =>
  .error (.malformed ⟨p.current.line, wording⟩)

/-- Fails at the token in hand. -/
def failNear {α : Type} (wording : Bytes) : Parse α := fun p =>
  .error (.malformed ⟨p.current.line, wording ++ utf8 " near " ++ p.current.near⟩)

/-- Fails at the token in hand, which is not the one that should be there. -/
def failExpected {α : Type} (what : String) : Parse α := failNear (utf8 what ++ utf8 " expected")

/-- How faults quote a keyword or a symbol. -/
def quoted (s : String) : String := "'" ++ s ++ "'"

/-! ## Tokens -/

/-- The first of some tokens. -/
def ofLexemes : Lexemes → Except ParseFault (Lexeme × Lexemes)
  | .eof line => .ok (⟨.eof, line, []⟩, .eof line)
  | .fault f => .error (.malformed f)
  | .cons l rest => .ok (l, rest)

/-- Takes the token in hand. -/
def advance : Parse Unit := fun p => do
  let (current, rest) ← ofLexemes p.rest
  return ((), { p with current, rest, takenLine := p.current.line })

/-- The token in hand. -/
def token : Parse Token := return (← get).current.token

/-- The line of the token in hand. -/
def line : Parse Nat := return (← get).current.line

/-- The line of the last token taken. -/
def lastLine : Parse Nat := return (← get).takenLine

/-- The token behind the one in hand. -/
def peek : Parse Token := fun p => do
  let (next, _) ← ofLexemes p.rest
  return (next.token, p)

/-- Whether a token is a keyword or a symbol of a spelling. -/
def Token.is (s : String) : Token → Bool
  | .keyword t | .symbol t => t == s
  | _ => false

/-- Whether the token in hand is a keyword or a symbol of a spelling. -/
def at? (s : String) : Parse Bool := return Token.is s (← token)

/-- Takes a keyword or a symbol if it is in hand. -/
def accept (s : String) : Parse Bool := do
  if ← at? s then
    advance
    return true
  else return false

/-- Takes a keyword or a symbol that has to be there. -/
def expect (s : String) : Parse Unit := do
  unless ← accept s do failExpected (quoted s)

/-- Takes what closes something that was opened on a line. -/
def expectClosing (what opener : String) (opened : Nat) : Parse Unit := do
  unless ← accept what do
    if opened == (← line) then failExpected (quoted what)
    else
      failNear (utf8 s!"{quoted what} expected (to close {quoted opener} at line {opened})")

/-- Takes a name. -/
def name : Parse Bytes := do
  match ← token with
  | .name text =>
    advance
    return text
  | _ => failExpected "<name>"

/-- Whether the token in hand ends a block; `withUntil` tells whether `until` does. -/
def atBlockEnd (withUntil : Bool) : Parse Bool := do
  match ← token with
  | .eof => return true
  | .keyword k =>
    return k == "else" || k == "elseif" || k == "end" || (withUntil && k == "until")
  | _ => return false

/-- One level deeper. -/
def nested {α : Type} (work : Parse α) : Parse α := fun p =>
  if p.depth + 1 == maxDepth then .error .tooDeep
  else do
    let (a, p) ← work { p with depth := p.depth + 1 }
    return (a, { p with depth := p.depth - 1 })

/-! ## Scopes -/

/-- The innermost function. -/
def scope : Parse Scope := return (← get).scopes.headD {}

/-- Changes the innermost function. -/
def onScope (f : Scope → Scope) : Parse Unit := modify fun p =>
  match p.scopes with
  | [] => p
  | s :: outer => { p with scopes := f s :: outer }

/-- Where a function starts, as a fault says it. -/
def Scope.place (s : Scope) : String :=
  if s.line == 0 then "main function" else s!"function at line {s.line}"

/-- Refuses more than so many things of a kind in a function. -/
def checkLimit (count limit : Nat) (what : String) (s : Scope) : Parse Unit := do
  if limit < count then
    failNear (utf8 s!"too many {what} (limit is {limit}) in {Scope.place s}")

/-- Makes sure that so many more local variables can be declared. -/
def checkLocals (more : Nat) : Parse Unit := do
  let s ← scope
  checkLimit (s.locals.length + more) maxLocals "local variables" s

/-- Declares local variables. -/
def declare (declared : List LocalVariable) : Parse Unit := onScope (·.declare declared)

/-- Declares a regular local variable. -/
def declareRegular (name : Bytes) : Parse Unit := declare [⟨name, .regular⟩]

/-- The number of local variables there are, which is the next slot. -/
def nextSlot : Parse Nat := return (← scope).locals.length

/-- Closes the innermost block; a jump of a function that is left without a label is a fault. -/
def leaveBlock : Parse Unit := do
  match (← scope).leaveBlock with
  | .ok s => onScope fun _ => s
  | .error j =>
    if j.label == breakLabel then refuse (utf8 s!"break outside a loop at line {j.line}")
    else
      refuse (utf8 "no visible label '" ++ j.label ++ utf8 s!"' for <goto> at line {j.line}")

/-- Parses in a block of its own. -/
def inBlock {α : Type} (isLoop : Bool) (work : Parse α) : Parse α := do
  onScope (·.enterBlock isLoop)
  let a ← work
  leaveBlock
  return a

/-- Finds the variable of a name, if it is one of the functions'. -/
def findVariable (name : Bytes) : Parse (Option Variable) := do
  let p ← get
  match Scope.resolve name p.scopes with
  | none => return none
  | some (v, scopes) =>
    scopes.forM fun s => checkLimit s.upvalues.length maxUpvalues "upvalues" s
    set { p with scopes }
    return some v

/-- The expression of a variable. -/
def Variable.expr (name : Bytes) : Variable → Expr
  | .localVar slot _ => .localVar slot name
  | .upvalue index _ => .upvalue index name

/-- The table of the global variables. -/
def environment : Bytes := utf8 "_ENV"

/-- The expression of a name: a variable of the functions, or a field of the environment. -/
def named (name : Bytes) : Parse Expr := do
  match ← findVariable name with
  | some v => return Variable.expr name v
  | none =>
    let env ← findVariable environment
    return .index ((env.map (Variable.expr environment)).getD .nil) (.string name) 0

/-- What may be done with the variable that a name stands for. -/
def accessTo (name : Bytes) : Parse Access := do
  match Scope.resolve name (← get).scopes with
  | some (.localVar _ access, _) | some (.upvalue _ access, _) => return access
  | none => return .regular

/-- Refuses an assignment to a constant. -/
def checkWritable (target : Expr) : Parse Unit := do
  match target with
  | .localVar _ n | .upvalue _ n =>
    unless (← accessTo n) == .regular do
      refuse (utf8 "attempt to assign to const variable '" ++ n ++ utf8 "'")
  | _ => return

/-- Settles an index on the line of the last token taken. -/
def settled (e : Expr) : Parse Expr := return e.settle (← lastLine)

/-- Settles the last of some expressions. -/
def settleLast (es : List Expr) : Parse (List Expr) := do
  match es.reverse with
  | [] => return []
  | e :: before => return (← settled e) :: before |>.reverse

/-! ## Operators -/

/-- What stands between two expressions. -/
inductive Infix where
  | binary (op : BinaryOp)
  | concat
  | and
  | or
  deriving Repr

/-- An operator between two expressions with its two strengths. -/
def between? : Token → Option (Infix × Nat × Nat)
  | .keyword "and" => some (.and, 2, 2)
  | .keyword "or" => some (.or, 1, 1)
  | .symbol s =>
    match s with
    | "+" => some (.binary .add, 10, 10)
    | "-" => some (.binary .sub, 10, 10)
    | "*" => some (.binary .mul, 11, 11)
    | "%" => some (.binary .mod, 11, 11)
    | "^" => some (.binary .pow, 14, 13)
    | "/" => some (.binary .div, 11, 11)
    | "//" => some (.binary .idiv, 11, 11)
    | "&" => some (.binary .band, 6, 6)
    | "|" => some (.binary .bor, 4, 4)
    | "~" => some (.binary .bxor, 5, 5)
    | "<<" => some (.binary .shl, 7, 7)
    | ">>" => some (.binary .shr, 7, 7)
    | ".." => some (.concat, 9, 8)
    | "==" => some (.binary .eq, 3, 3)
    | "~=" => some (.binary .ne, 3, 3)
    | "<" => some (.binary .lt, 3, 3)
    | "<=" => some (.binary .le, 3, 3)
    | ">" => some (.binary .gt, 3, 3)
    | ">=" => some (.binary .ge, 3, 3)
    | _ => none
  | _ => none

/-- An operator before an expression. -/
def before? : Token → Option UnaryOp
  | .keyword "not" => some .not
  | .symbol "-" => some .neg
  | .symbol "~" => some .bnot
  | .symbol "#" => some .len
  | _ => none

/-- How strongly an operator before an expression holds on to it. -/
def unaryStrength : Nat := 12

/-- Whether an operator is reported on the line where its right side ends. -/
def isComparison : BinaryOp → Bool
  | .eq | .ne | .lt | .le | .gt | .ge => true
  | _ => false

/-- The expression of an operator on `opLine` between two expressions. -/
def combine (op : Infix) (left right : Expr) (opLine endLine : Nat) : Expr :=
  match op with
  | .and => .and left right
  | .or => .or left right
  | .concat =>
    match right with
    | .concat operands line => .concat (left :: operands) line
    | _ => .concat [left, right] opLine
  | .binary op => .binary op left right (if isComparison op then endLine else opLine)

/-! ## The grammar -/

/-- Whether an expression can be assigned to. -/
def isTarget : Expr → Bool
  | .localVar .. | .upvalue .. | .index .. => true
  | _ => false

/-- Whether an expression is a call. -/
def isCall : Expr → Bool
  | .call .. | .method .. => true
  | _ => false

/-- A local variable that a script cannot name. -/
def hidden : LocalVariable := ⟨utf8 "(for state)", .regular⟩

/-- The access that a declaration asks for behind a name. -/
def access : Parse Access := do
  if ← accept "<" then
    let word ← name
    expect ">"
    if word == utf8 "const" then return .constant
    else if word == utf8 "close" then return .closing
    else refuse (utf8 "unknown attribute '" ++ word ++ utf8 "'")
  else return .regular

/-- Sets a label in the innermost block. -/
def setLabel (label : Bytes) (opened : Nat) : Parse Unit := do
  let s ← scope
  match s.label? label with
  | some first =>
    refuse (utf8 "label '" ++ label ++ utf8 s!"' already defined on line {first}")
  | none =>
    let atEnd ← atBlockEnd false
    let active := if atEnd then ((s.blocks.head?.map (·.active)).getD 0) else s.locals.length
    match s.setLabel label opened active with
    | .ok s => onScope fun _ => s
    | .error (j, into) =>
      refuse
        (utf8 "<goto " ++ j.label ++ utf8 s!"> at line {j.line} jumps into the scope of local '"
        ++ into ++ utf8 "'")

/-- The names that a declaration declares; `declared` counts those before. -/
def declaredNames : Nat → Nat → Parse (List LocalVariable)
  | 0, _ => fun _ => .error .tooDeep
  | fuel + 1, declared => do
    let n ← name
    checkLocals (declared + 1)
    let a ← access
    if ← accept "," then
      let rest ← declaredNames fuel (declared + 1)
      return ⟨n, a⟩ :: rest
    else return [⟨n, a⟩]

/-- Checks that at most one of some variables is to be closed; gives its place among them. -/
def closingOf (declared : List LocalVariable) : Parse (Option Nat) := do
  if 1 < (declared.filter (·.access == .closing)).length then
    refuse (utf8 "multiple to-be-closed variables in local list")
  return declared.findIdx? (·.access == .closing)

/-- More names behind a comma; `declared` counts those before. -/
def moreNames : Nat → Nat → Parse (List Bytes)
  | 0, _ => fun _ => .error .tooDeep
  | fuel + 1, declared => do
    if ← accept "," then
      let n ← name
      checkLocals (declared + 1)
      return n :: (← moreNames fuel (declared + 1))
    else return []

/-- The parameters up to the closing parenthesis, and whether there may be more arguments. -/
def parameters : Nat → Nat → Parse (List Bytes × Bool)
  | 0, _ => fun _ => .error .tooDeep
  | fuel + 1, declared => do
    match ← token with
    | .name n =>
      advance
      checkLocals (declared + 1)
      if ← accept "," then
        let (rest, isVararg) ← parameters fuel (declared + 1)
        return (n :: rest, isVararg)
      else return ([n], false)
    | .symbol "..." =>
      advance
      return ([], true)
    | _ => failNear (utf8 "<name> or '...' expected")

mutual

/-- An expression whose operators hold on to it more strongly than `limit`. -/
def expression : Nat → Nat → Parse Expr
  | 0, _ => fun _ => .error .tooDeep
  | fuel + 1, limit => nested do
    let opLine ← line
    let first ← match before? (← token) with
      | some op => do
        advance
        let operand ← expression fuel unaryStrength
        pure (Expr.unary op (← settled operand) opLine)
      | none => simple fuel
    operators fuel limit first

/-- The operators behind an expression that hold on to it more strongly than `limit`. -/
def operators : Nat → Nat → Expr → Parse Expr
  | 0, _, _ => fun _ => .error .tooDeep
  | fuel + 1, limit, left => do
    match between? (← token) with
    | none => return left
    | some (op, before, behind) =>
      if before ≤ limit then return left
      else do
        let opLine ← line
        advance
        let left ← settled left
        let right ← settled (← expression fuel behind)
        operators fuel limit (combine op left right opLine (← lastLine))

/-- An expression without operators. -/
def simple : Nat → Parse Expr
  | 0 => fun _ => .error .tooDeep
  | fuel + 1 => do
    match ← token with
    | .number n => do advance; return .number n
    | .string s => do advance; return .string s
    | .keyword "nil" => do advance; return .nil
    | .keyword "true" => do advance; return .true
    | .keyword "false" => do advance; return .false
    | .symbol "..." =>
      unless (← scope).isVararg do
        failNear (utf8 "cannot use '...' outside a vararg function")
      advance
      return .vararg
    | .symbol "\x7b" => return .table (← constructor fuel)
    | .keyword "function" => do
      advance
      return .function (← functionBody fuel false (← line))
    | _ => suffixed fuel

/-- A name or an expression in parentheses. -/
def primary : Nat → Parse Expr
  | 0 => fun _ => .error .tooDeep
  | fuel + 1 => do
    match ← token with
    | .name n => do
      advance
      named n
    | .symbol "(" => do
      let opened ← line
      advance
      let e ← expression fuel 0
      expectClosing ")" "(" opened
      return .paren (← settled e)
    | _ => failNear (utf8 "unexpected symbol")

/-- A name or an expression in parentheses with what follows it: fields, indices and calls. -/
def suffixed : Nat → Parse Expr
  | 0 => fun _ => .error .tooDeep
  | fuel + 1 => do suffixes fuel (← primary fuel)

/-- Fields, indices and calls behind an expression. -/
def suffixes : Nat → Expr → Parse Expr
  | 0, _ => fun _ => .error .tooDeep
  | fuel + 1, e => do
    match ← token with
    | .symbol "." => do
      let e ← settled e
      advance
      suffixes fuel (.index e (.string (← name)) 0)
    | .symbol "[" => do
      let e ← settled e
      suffixes fuel (.index e (← bracketed fuel) 0)
    | .symbol ":" => do
      advance
      let n ← name
      let selfLine ← lastLine
      let (args, callLine) ← arguments fuel
      suffixes fuel (.method (e.settle selfLine) n args selfLine callLine)
    | .symbol "(" | .symbol "\x7b" | .string _ => do
      let e ← settled e
      let (args, callLine) ← arguments fuel
      suffixes fuel (.call e args callLine)
    | _ => return e

/-- An expression in brackets. -/
def bracketed : Nat → Parse Expr
  | 0 => fun _ => .error .tooDeep
  | fuel + 1 => do
    advance
    let e ← settled (← expression fuel 0)
    expect "]"
    return e

/-- The arguments of a call, with the line that they start on. -/
def arguments : Nat → Parse (List Expr × Nat)
  | 0 => fun _ => .error .tooDeep
  | fuel + 1 => do
    let opened ← line
    match ← token with
    | .string s => do
      advance
      return ([.string s], opened)
    | .symbol "\x7b" => return ([.table (← constructor fuel)], opened)
    | .symbol "(" => do
      advance
      if ← accept ")" then return ([], opened)
      else
        let args ← expressions fuel
        expectClosing ")" "(" opened
        return (← settleLast args, opened)
    | _ => failNear (utf8 "function arguments expected")

/-- Expressions between commas; the last one is not settled. -/
def expressions : Nat → Parse (List Expr)
  | 0 => fun _ => .error .tooDeep
  | fuel + 1 => do
    let e ← expression fuel 0
    if ← accept "," then
      let e ← settled e
      return e :: (← expressions fuel)
    else return [e]

/-- A table constructor. -/
def constructor : Nat → Parse (List Field)
  | 0 => fun _ => .error .tooDeep
  | fuel + 1 => do
    let opened ← line
    expect "\x7b"
    fields fuel opened

/-- The fields of a table up to the closing brace. -/
def fields : Nat → Nat → Parse (List Field)
  | 0, _ => fun _ => .error .tooDeep
  | fuel + 1, opened => do
    if ← accept "\x7d" then return []
    else
      let f ← field fuel
      let more ← (do if ← accept "," then return true else accept ";")
      unless more do expectClosing "\x7d" "\x7b" opened
      let f ← match f with
        | .item e => do pure (Field.item (← settled e))
        | entry => pure entry
      if more then return f :: (← fields fuel opened) else return [f]

/-- A field of a table; an item is not settled. -/
def field : Nat → Parse Field
  | 0 => fun _ => .error .tooDeep
  | fuel + 1 => do
    let keyed (key : Expr) : Parse Field := do
      expect "="
      let value ← settled (← expression fuel 0)
      return .entry key value (← lastLine)
    match ← token with
    | .name _ =>
      if Token.is "=" (← peek) then keyed (.string (← name))
      else return .item (← expression fuel 0)
    | .symbol "[" => keyed (← bracketed fuel)
    | _ => return .item (← expression fuel 0)

/-- A function from its parameters to its end; `opened` is the line it is said to start on. -/
def functionBody : Nat → Bool → Nat → Parse Proto
  | 0, _, _ => fun _ => .error .tooDeep
  | fuel + 1, isMethod, opened => do
    let scope : Scope := { line := opened }
    modify fun p => { p with scopes := scope.enterBlock false :: p.scopes }
    expect "("
    if isMethod then declareRegular (utf8 "self")
    let self := if isMethod then 1 else 0
    let (names, isVararg) ← (do
      if ← at? ")" then return ([], false)
      else parameters fuel self : Parse (List Bytes × Bool))
    declare (names.map fun n => ⟨n, .regular⟩)
    onScope fun s => { s with isVararg }
    expect ")"
    let body ← statements fuel []
    expectClosing "end" "function" opened
    leaveBlock
    let p ← get
    let s := p.scopes.headD {}
    set { p with scopes := p.scopes.drop 1 }
    return .mk (self + names.length) isVararg s.slots (s.upvalues.map (·.source)) body opened

/-- Statements up to the end of a block; `done` holds those before, backwards. -/
def statements : Nat → List Stmt → Parse (List Stmt)
  | 0, _ => fun _ => .error .tooDeep
  | fuel + 1, done => do
    if ← atBlockEnd true then return done.reverse
    else
      let isReturn ← at? "return"
      let first ← statement fuel
      let done := first.reverse ++ done
      if isReturn then return done.reverse else statements fuel done

/-- Statements in a block of their own. -/
def block : Nat → Parse (List Stmt)
  | 0 => fun _ => .error .tooDeep
  | fuel + 1 => inBlock false (statements fuel [])

/-- One statement; an empty one is none. -/
def statement : Nat → Parse (List Stmt)
  | 0 => fun _ => .error .tooDeep
  | fuel + 1 => nested do
    let opened ← line
    match ← token with
    | .symbol ";" => do
      advance
      return []
    | .keyword "if" => do
      advance
      let (clauses, otherwise) ← clauses fuel opened
      return [.if clauses otherwise]
    | .keyword "while" => do
      advance
      let condition ← settled (← expression fuel 0)
      let body ← inBlock true do
        expect "do"
        block fuel
      expectClosing "end" "while" opened
      return [.while condition body]
    | .keyword "do" => do
      advance
      let body ← block fuel
      expectClosing "end" "do" opened
      return [.block body]
    | .keyword "for" => do
      advance
      let first ← name
      let s ← inBlock true do
        let s ← forLoop fuel first
        expectClosing "end" "for" opened
        return s
      return [s]
    | .keyword "repeat" => do
      advance
      inBlock true <| inBlock false do
        let body ← statements fuel []
        expectClosing "until" "repeat" opened
        let condition ← settled (← expression fuel 0)
        return [.repeat body condition]
    | .keyword "function" => do
      advance
      functionStatement fuel opened
    | .keyword "local" => do
      advance
      if ← accept "function" then
        let n ← name
        checkLocals 1
        let slot ← nextSlot
        declareRegular n
        return [.localFunction slot (← functionBody fuel false (← line))]
      else localStatement fuel
    | .symbol "::" => do
      advance
      let label ← name
      expect "::"
      let skipped ← emptyStatements fuel
      setLabel label opened
      return skipped ++ [.label label]
    | .keyword "return" => do
      advance
      let isBare ← (do if ← atBlockEnd true then return true else at? ";" : Parse Bool)
      let values ← if isBare then pure [] else settleLast (← expressions fuel)
      let _ ← accept ";"
      return [.return values]
    | .keyword "break" => do
      advance
      onScope (·.jump breakLabel opened)
      return [.break]
    | .keyword "goto" => do
      advance
      let jumpLine ← line
      let label ← name
      onScope (·.jump label jumpLine)
      return [.goto label]
    | _ => expressionStatement fuel

/-- Empty statements and labels behind a label. -/
def emptyStatements : Nat → Parse (List Stmt)
  | 0 => fun _ => .error .tooDeep
  | fuel + 1 => do
    let more ← (do if ← at? ";" then return true else at? "::" : Parse Bool)
    if more then
      let first ← statement fuel
      return first ++ (← emptyStatements fuel)
    else return []

/-- The clauses of an `if` from a condition to the end. -/
def clauses : Nat → Nat → Parse (List Clause × List Stmt)
  | 0, _ => fun _ => .error .tooDeep
  | fuel + 1, opened => do
    let condition ← expression fuel 0
    expect "then"
    let condition ← settled condition
    let body ← block fuel
    if ← accept "elseif" then
      let (rest, otherwise) ← clauses fuel opened
      return (.mk condition body :: rest, otherwise)
    else
      let otherwise ← (do if ← accept "else" then block fuel else return [] : Parse (List Stmt))
      expectClosing "end" "if" opened
      return ([.mk condition body], otherwise)

/-- A loop behind its first variable, up to its end. -/
def forLoop : Nat → Bytes → Parse Stmt
  | 0, _ => fun _ => .error .tooDeep
  | fuel + 1, first => do
    match ← token with
    | .symbol "=" => do
      checkLocals 4
      advance
      let start ← settled (← expression fuel 0)
      expect ","
      let limit ← settled (← expression fuel 0)
      let step ← (do
        if ← accept "," then return some (← settled (← expression fuel 0))
        else return none : Parse (Option Expr))
      declare (List.replicate 3 hidden)
      expect "do"
      let doLine ← lastLine
      let slot ← nextSlot
      let body ← inBlock false do
        declareRegular first
        block fuel
      return .numericFor slot start limit step body doLine
    | .symbol "," | .keyword "in" => do
      checkLocals 5
      let more ← moreNames fuel 5
      expect "in"
      let callLine ← line
      let values ← settleLast (← expressions fuel)
      declare (List.replicate 4 hidden)
      expect "do"
      let slot ← nextSlot
      let body ← inBlock false do
        declare ((first :: more).map fun n => ⟨n, .regular⟩)
        block fuel
      return .genericFor slot (more.length + 1) values body callLine
    | _ => failNear (utf8 "'=' or 'in' expected")

/-- A function that is assigned to a name, a field or a method. -/
def functionStatement : Nat → Nat → Parse (List Stmt)
  | 0, _ => fun _ => .error .tooDeep
  | fuel + 1, opened => do
    let (target, isMethod) ← functionName fuel (← named (← name))
    let proto ← functionBody fuel isMethod opened
    checkWritable target
    return [.assign [target.settle opened] [.function proto]]

/-- The fields behind the name of a function, and whether it is a method. -/
def functionName : Nat → Expr → Parse (Expr × Bool)
  | 0, _ => fun _ => .error .tooDeep
  | fuel + 1, e => do
    if ← at? "." then
      let e ← settled e
      advance
      functionName fuel (.index e (.string (← name)) 0)
    else if ← at? ":" then
      let e ← settled e
      advance
      return (.index e (.string (← name)) 0, true)
    else return (e, false)

/-- Declarations of local variables behind `local`. -/
def localStatement : Nat → Parse (List Stmt)
  | 0 => fun _ => .error .tooDeep
  | fuel + 1 => do
    let declared ← declaredNames fuel 0
    let closing ← closingOf declared
    let values ← (do
      if ← accept "=" then settleLast (← expressions fuel) else return [] : Parse (List Expr))
    let slot ← nextSlot
    declare declared
    return [.localVars slot declared.length closing (declared.map (·.name)) values (← lastLine)]

/-- A call or an assignment. -/
def expressionStatement : Nat → Parse (List Stmt)
  | 0 => fun _ => .error .tooDeep
  | fuel + 1 => do
    let e ← suffixed fuel
    let assigns ← (do if ← at? "=" then return true else at? "," : Parse Bool)
    if assigns then
      let (targets, values) ← assignment fuel e
      return [.assign targets values]
    else if isCall e then return [.call e]
    else failNear (utf8 "syntax error")

/-- The targets and the values of an assignment behind its first target. -/
def assignment : Nat → Expr → Parse (List Expr × List Expr)
  | 0, _ => fun _ => .error .tooDeep
  | fuel + 1, target => do
    unless isTarget target do failNear (utf8 "syntax error")
    checkWritable target
    if ← accept "," then
      let next ← suffixed fuel
      let (targets, values) ← nested (assignment fuel next)
      return (target.settle (← lastLine) :: targets, values)
    else
      expect "="
      let values ← settleLast (← expressions fuel)
      return ([target.settle (← lastLine)], values)

end

/-! ## Scripts -/

/-- Enough fuel for a script of so many bytes. -/
def fuelFor (size : Nat) : Nat := 16 * size + 64

/-- The function that a whole script is: it takes any arguments, and its only upvalue is the
environment. -/
def script (size : Nat) : Parse Proto := do
  let body ← statements (fuelFor size) []
  unless (← token) matches .eof do failExpected "<eof>"
  leaveBlock
  let s ← scope
  return .mk 0 true s.slots (s.upvalues.map (·.source)) body 0

/-- The function of a script. -/
def ofScript (text : Bytes) : Except ParseFault Proto := do
  let (current, rest) ← ofLexemes (Lexemes.ofScript text)
  let outermost : Scope :=
    { upvalues := [⟨⟨environment, true, 0⟩, .regular⟩], isVararg := true }
  let (proto, _) ← (script text.length).run
    { current, rest, takenLine := 1, scopes := [outermost.enterBlock false], depth := 0 }
  return proto

end Parser

end BracketTemplate.Script
