import Mathlib
import BracketTemplate.Proofs.Script.Calls
import BracketTemplate.Script.Parser

/-!
# The statements of a lowered program

From tokens to trees.  `Parser.Takes` is what a part of the parser does in front of certain tokens:
unless it comes upon a fault, it takes some of them and gives a tree.  The parts are put together
along the descent of the parser, from a literal (`takes_simple`) up to a call as a statement
(`takes_statement`), and by induction on the calls a script of calls is parsed to a statement for
each of them (`ofScript_calls`).
-/

namespace BracketTemplate.Script

/-- The expression of a literal. -/
def Literal.expr : Literal → Expr
  | nil => .nil
  | bool b => if b then .true else .false
  | number n => .number n
  | string text => .string text

/-- The argument of a call as an expression. -/
def GlobalCall.expr (c : GlobalCall) : Expr :=
  if c.isWrapped then .paren c.argument.expr else c.argument.expr

/-- Whether a statement is a call, on whatever lines it stands. -/
def GlobalCall.Is (c : GlobalCall) (s : Stmt) : Prop :=
  ∃ line line',
    s = .call (.call (.index (.upvalue 0 Parser.environment) (.string (utf8 c.name)) line)
      [c.expr] line')

namespace Parser

variable {α β : Type} {ends : Prop} {depth fuel : Nat} {ts mid rest : List Token} {t : Token}

/-! ## Tokens in front of a parser -/

/-- The function that a whole script is, before anything of it is parsed. -/
def wholeScript : Scope :=
  Scope.enterBlock { upvalues := [⟨⟨environment, true, 0⟩, .regular⟩], isVararg := true } false

/-- A parser stands in front of tokens, so deep in the whole script. -/
structure At (p : Parser) (ends : Prop) (depth : Nat) (ts : List Token) : Prop where
  current : p.current.token = ts.headD .eof
  rest : p.rest.Are ends ts.tail
  /-- When there are no more tokens, this is the end. -/
  ended : ts = [] → ends
  scopes : p.scopes = [wholeScript]
  depth : p.depth = depth

/-- In front of certain tokens, a part of the parser can only take them up to those that are left
and give something with a property; it may come upon a fault. -/
def Takes (ends : Prop) (depth : Nat) (work : Parse α) (ts rest : List Token) (P : α → Prop) :
    Prop :=
  ∀ p : Parser, p.At ends depth ts → ∀ a p', work p = .ok (a, p') → p'.At ends depth rest ∧ P a

/-- **One part after another.** -/
lemma Takes.bind {work : Parse α} {next : α → Parse β} {P : α → Prop} {Q : β → Prop}
    (h : Takes ends depth work ts mid P) (hnext : ∀ a, P a → Takes ends depth (next a) mid rest Q) :
    Takes ends depth (work >>= next) ts rest Q := by
  intro p hp b p'' hboth
  obtain ⟨⟨a, p'⟩, hwork, hb⟩ := Source.bind_eq_ok.1 hboth
  obtain ⟨hp', ha⟩ := h p hp a p' hwork
  exact hnext a ha p' hp' b p'' hb

lemma Takes.mono {work : Parse α} {P Q : α → Prop} (h : Takes ends depth work ts rest P)
    (hPQ : ∀ a, P a → Q a) : Takes ends depth work ts rest Q :=
  fun p hp a p' hwork => (h p hp a p' hwork).imp_right (hPQ a)

lemma takes_pure {a : α} {P : α → Prop} (ha : P a) :
    Takes ends depth (pure a : Parse α) ts ts P := by
  rintro p hp _ _ ⟨⟩
  exact ⟨hp, ha⟩

lemma takes_token (ts : List Token) : Takes ends depth token ts ts (· = ts.headD .eof) := by
  rintro p hp _ _ ⟨⟩
  exact ⟨hp, hp.current⟩

lemma takes_line (ts : List Token) : Takes ends depth line ts ts fun _ => True := by
  rintro p hp _ _ ⟨⟩
  exact ⟨hp, trivial⟩

lemma takes_lastLine (ts : List Token) : Takes ends depth lastLine ts ts fun _ => True := by
  rintro p hp _ _ ⟨⟩
  exact ⟨hp, trivial⟩

/-- Without fuel nothing is taken. -/
lemma takes_tooDeep {P : α → Prop} :
    Takes ends depth (fun _ => .error .tooDeep : Parse α) ts rest P := nofun

/-- The first of some tokens, unless there is a fault in its place. -/
lemma of_ofLexemes {lexemes after : Lexemes} {l : Lexeme} (hare : lexemes.Are ends ts)
    (h : ofLexemes lexemes = .ok (l, after)) :
    l.token = ts.headD .eof ∧ after.Are ends ts.tail ∧ (ts = [] → ends) := by
  cases lexemes with
  | fault => cases h
  | eof line =>
    cases h
    cases ts with
    | nil => exact ⟨rfl, hare, fun _ => hare⟩
    | cons t ts => cases hare
  | cons l rest =>
    cases h
    cases ts with
    | nil => cases hare
    | cons t ts => exact ⟨hare.1, hare.2, nofun⟩

lemma takes_advance (t : Token) (ts : List Token) :
    Takes ends depth advance (t :: ts) ts fun _ => True := by
  intro p hp _ p' hadvance
  obtain ⟨⟨l, after⟩, hlexemes, h⟩ := Source.bind_eq_ok.1 hadvance
  cases h
  obtain ⟨htoken, hafter, hended⟩ := of_ofLexemes hp.rest hlexemes
  exact ⟨⟨htoken, hafter, hended, hp.scopes, hp.depth⟩, trivial⟩

lemma takes_at? (s : String) (ts : List Token) :
    Takes ends depth (at? s) ts ts (· = Token.is s (ts.headD .eof)) :=
  (takes_token ts).bind fun _ ht => takes_pure (by rw [ht])

lemma takes_accept {s : String} (h : Token.is s t = true) (ts : List Token) :
    Takes ends depth (accept s) (t :: ts) ts (· = true) := by
  refine (takes_at? s _).bind ?_
  rintro _ rfl
  rw [List.headD_cons, h]
  exact (takes_advance t ts).bind fun _ _ => takes_pure rfl

/-- A symbol that is not there is not taken. -/
lemma takes_not_accept {s : String} (h : Token.is s (ts.headD .eof) = false) :
    Takes ends depth (accept s) ts ts (· = false) := by
  refine (takes_at? s _).bind ?_
  rintro _ rfl
  rw [h]
  exact takes_pure rfl

lemma takes_expectClosing {what : String} (h : Token.is what t = true) (ts : List Token)
    (opener : String) (opened : Nat) :
    Takes ends depth (expectClosing what opener opened) (t :: ts) ts fun _ => True := by
  refine (takes_accept h ts).bind ?_
  rintro _ rfl
  exact takes_pure trivial

lemma takes_settled {e : Expr} (h : ∀ line, e.settle line = e) (ts : List Token) :
    Takes ends depth (settled e) ts ts (· = e) :=
  (takes_lastLine ts).bind fun line _ => takes_pure (h line)

lemma takes_nested {work : Parse α} {P : α → Prop} (h : Takes ends (depth + 1) work ts rest P) :
    Takes ends depth (nested work) ts rest P := by
  intro p hp a p'' hnested
  unfold nested at hnested
  split at hnested
  · cases hnested
  obtain ⟨⟨a, p'⟩, hwork, h'⟩ := Source.bind_eq_ok.1 hnested
  cases h'
  obtain ⟨hp', ha⟩ := h { p with depth := p.depth + 1 }
    ⟨hp.current, hp.rest, hp.ended, hp.scopes, congrArg (· + 1) hp.depth⟩ a p' hwork
  exact ⟨⟨hp'.current, hp'.rest, hp'.ended, hp'.scopes, by simp [hp'.depth]⟩, ha⟩

/-! ## Arguments -/

variable {l : Literal} {c : GlobalCall}

/-- A literal is an expression by itself. -/
lemma takes_simple (l : Literal) (ts : List Token) :
    Takes ends depth (simple fuel) (l.token :: ts) ts (· = l.expr) := by
  rcases fuel with _ | fuel <;> rw [simple]
  · exact takes_tooDeep
  refine (takes_token _).bind ?_
  rintro _ rfl
  cases l with
  | nil | number | string => exact (takes_advance _ _).bind fun _ _ => takes_pure rfl
  | bool b => cases b <;> exact (takes_advance _ _).bind fun _ _ => takes_pure rfl

/-- No operator stands in front of a closing parenthesis. -/
lemma takes_operators (limit : Nat) (e : Expr) (ts : List Token) :
    Takes ends depth (operators fuel limit e) (.symbol ")" :: ts) (.symbol ")" :: ts) (· = e) := by
  rcases fuel with _ | fuel <;> rw [operators]
  · exact takes_tooDeep
  refine (takes_token _).bind ?_
  rintro _ rfl
  exact takes_pure rfl

/-- An expression that starts with no operator is a simple one in front of a closing parenthesis. -/
lemma takes_expression (limit : Nat) (ht : before? t = none) {e : Expr}
    (h : ∀ fuel, Takes ends (depth + 1) (simple fuel) (t :: ts) (.symbol ")" :: rest) (· = e)) :
    Takes ends depth (expression fuel limit) (t :: ts) (.symbol ")" :: rest) (· = e) := by
  rcases fuel with _ | fuel <;> rw [expression]
  · exact takes_tooDeep
  refine takes_nested <| (takes_line _).bind fun _ _ => (takes_token _).bind ?_
  rintro _ rfl
  simp only [ht]
  refine (h fuel).bind ?_
  rintro _ rfl
  exact takes_operators limit _ rest

lemma before?_literal (l : Literal) : before? l.token = none := by
  cases l with
  | nil | number | string => rfl
  | bool b => cases b <;> rfl

lemma settle_literal (l : Literal) (line : Nat) : l.expr.settle line = l.expr := by
  cases l with
  | nil | number | string => rfl
  | bool b => cases b <;> rfl

lemma settle_argument (c : GlobalCall) (line : Nat) : c.expr.settle line = c.expr := by
  unfold GlobalCall.expr
  split
  · rfl
  · exact settle_literal c.argument line

/-- Nothing follows an expression in front of a closing parenthesis. -/
lemma takes_suffixes_closing (e : Expr) (ts : List Token) :
    Takes ends depth (suffixes fuel e) (.symbol ")" :: ts) (.symbol ")" :: ts) (· = e) := by
  rcases fuel with _ | fuel <;> rw [suffixes]
  · exact takes_tooDeep
  refine (takes_token _).bind ?_
  rintro _ rfl
  exact takes_pure rfl

/-- A literal in parentheses is a simple expression. -/
lemma takes_wrapped (l : Literal) (ts : List Token) :
    Takes ends depth (simple fuel) (.symbol "(" :: l.token :: .symbol ")" :: .symbol ")" :: ts)
      (.symbol ")" :: ts) (· = .paren l.expr) := by
  have hprimary (fuel : Nat) : Takes ends depth (primary fuel)
      (.symbol "(" :: l.token :: .symbol ")" :: .symbol ")" :: ts) (.symbol ")" :: ts)
      (· = .paren l.expr) := by
    rcases fuel with _ | fuel <;> rw [primary]
    · exact takes_tooDeep
    refine (takes_token _).bind ?_
    rintro _ rfl
    refine (takes_line _).bind fun opened _ => (takes_advance _ _).bind fun _ _ => ?_
    refine (takes_expression 0 (before?_literal l) fun _ => takes_simple l _).bind ?_
    rintro _ rfl
    refine (takes_expectClosing rfl _ _ _).bind fun _ _ => ?_
    refine (takes_settled (settle_literal l) _).bind ?_
    rintro _ rfl
    exact takes_pure rfl
  have hsuffixed (fuel : Nat) : Takes ends depth (suffixed fuel)
      (.symbol "(" :: l.token :: .symbol ")" :: .symbol ")" :: ts) (.symbol ")" :: ts)
      (· = .paren l.expr) := by
    rcases fuel with _ | fuel <;> rw [suffixed]
    · exact takes_tooDeep
    refine (hprimary fuel).bind ?_
    rintro _ rfl
    exact takes_suffixes_closing _ ts
  rcases fuel with _ | fuel <;> rw [simple]
  · exact takes_tooDeep
  refine (takes_token _).bind ?_
  rintro _ rfl
  exact hsuffixed fuel

/-- **The argument of a call is parsed.** -/
lemma takes_argument (c : GlobalCall) (ts : List Token) :
    Takes ends depth (expression fuel 0) (c.argumentTokens ++ .symbol ")" :: ts) (.symbol ")" :: ts)
      (· = c.expr) := by
  unfold GlobalCall.argumentTokens GlobalCall.expr
  split
  · exact takes_expression 0 rfl fun _ => takes_wrapped c.argument ts
  · exact takes_expression 0 (before?_literal _) fun _ => takes_simple c.argument _

lemma is_argumentTokens (c : GlobalCall) (ts : List Token) :
    Token.is ")" ((c.argumentTokens ++ ts).headD .eof) = false := by
  unfold GlobalCall.argumentTokens
  split
  · rfl
  · cases c.argument with
    | nil | number | string => rfl
    | bool b => cases b <;> rfl

/-- The argument of a call in its parentheses. -/
lemma takes_arguments (c : GlobalCall) (ts : List Token) :
    Takes ends depth (arguments fuel)
      (.symbol "(" :: (c.argumentTokens ++ .symbol ")" :: ts)) ts (·.1 = [c.expr]) := by
  have hexpressions (fuel : Nat) : Takes ends depth (expressions fuel)
      (c.argumentTokens ++ .symbol ")" :: ts) (.symbol ")" :: ts) (· = [c.expr]) := by
    rcases fuel with _ | fuel <;> rw [expressions]
    · exact takes_tooDeep
    refine (takes_argument c ts).bind ?_
    rintro _ rfl
    refine (takes_not_accept (s := ",") rfl).bind ?_
    rintro _ rfl
    exact takes_pure rfl
  rcases fuel with _ | fuel <;> rw [arguments]
  · exact takes_tooDeep
  refine (takes_line _).bind fun opened _ => (takes_token _).bind ?_
  rintro _ rfl
  refine (takes_advance _ _).bind fun _ _ => (takes_not_accept (is_argumentTokens c _)).bind ?_
  rintro _ rfl
  refine (hexpressions fuel).bind ?_
  rintro _ rfl
  refine (takes_expectClosing rfl _ _ _).bind fun _ _ => ?_
  have hsettled : Takes ends depth (settleLast [c.expr]) ts ts (· = [c.expr]) := by
    refine (takes_settled (settle_argument c) ts).bind ?_
    rintro _ rfl
    exact takes_pure rfl
  refine hsettled.bind ?_
  rintro _ rfl
  exact takes_pure rfl

/-! ## Calls -/

/-- The only variable of a whole script is the table of the global variables. -/
lemma resolve_wholeScript (name : Bytes) :
    Scope.resolve name [wholeScript] =
      if name = environment then some (.upvalue 0 .regular, [wholeScript]) else none := by
  by_cases hname : name = environment
  · subst hname
    simp [Scope.resolve, Scope.local?, Scope.upvalue?, wholeScript, Scope.enterBlock]
  · simp [Scope.resolve, Scope.local?, Scope.upvalue?, wholeScript, Scope.enterBlock, hname,
      Ne.symm hname]

lemma takes_findVariable (name : Bytes) (ts : List Token) :
    Takes ends depth (findVariable name) ts ts
      (· = if name = environment then some (.upvalue 0 .regular) else none) := by
  have hget : Takes ends depth (get : Parse Parser) ts ts (·.At ends depth ts) := by
    rintro p hp _ _ ⟨⟩
    exact ⟨hp, hp⟩
  refine hget.bind fun p hp => ?_
  rw [hp.scopes, resolve_wholeScript]
  by_cases hname : name = environment
  · rw [if_pos hname, if_pos hname]
    -- there are few enough variables from outside
    rintro q hq _ _ ⟨⟩
    exact ⟨⟨hp.current, hp.rest, hp.ended, rfl, hp.depth⟩, rfl⟩
  · rw [if_neg hname, if_neg hname]
    exact takes_pure rfl

/-- A name of the script is that of a global variable. -/
lemma takes_named {name : Bytes} (hname : name ≠ environment) (ts : List Token) :
    Takes ends depth (named name) ts ts (· = .index (.upvalue 0 environment) (.string name) 0) := by
  refine (takes_findVariable name ts).bind ?_
  rintro _ rfl
  rw [if_neg hname]
  refine (takes_findVariable environment ts).bind ?_
  rintro _ rfl
  exact takes_pure rfl

lemma takes_settle (e : Expr) (ts : List Token) :
    Takes ends depth (settled e) ts ts fun settled => ∃ line, settled = e.settle line :=
  (takes_lastLine ts).bind fun line _ => takes_pure ⟨line, rfl⟩

/-- Nothing follows a call in front of another one, or at the end. -/
lemma takes_suffixes_end (e : Expr)
    (hend : ts.headD .eof = .eof ∨ ∃ name, ts.headD .eof = .name name) :
    Takes ends depth (suffixes fuel e) ts ts (· = e) := by
  rcases fuel with _ | fuel <;> rw [suffixes]
  · exact takes_tooDeep
  refine (takes_token _).bind ?_
  rintro _ rfl
  rcases hend with hend | ⟨name, hend⟩ <;> rw [hend] <;> exact takes_pure rfl

/-- A call is an expression with one suffix. -/
lemma takes_call (c : GlobalCall) (hname : utf8 c.name ≠ environment)
    (hend : ts.headD .eof = .eof ∨ ∃ name, ts.headD .eof = .name name) :
    Takes ends depth (suffixed fuel) (c.tokens ++ ts) ts fun e => ∃ line line',
      e = .call (.index (.upvalue 0 environment) (.string (utf8 c.name)) line) [c.expr] line' := by
  have hprimary (fuel : Nat) : Takes ends depth (primary fuel) (c.tokens ++ ts)
      (.symbol "(" :: (c.argumentTokens ++ .symbol ")" :: ts))
      (· = .index (.upvalue 0 environment) (.string (utf8 c.name)) 0) := by
    rcases fuel with _ | fuel <;> rw [primary, c.tokens_append]
    · exact takes_tooDeep
    refine (takes_token _).bind ?_
    rintro _ rfl
    exact (takes_advance _ _).bind fun _ _ => takes_named hname _
  rcases fuel with _ | fuel <;> rw [suffixed]
  · exact takes_tooDeep
  refine (hprimary fuel).bind ?_
  rintro _ rfl
  rcases fuel with _ | fuel <;> rw [suffixes]
  · exact takes_tooDeep
  refine (takes_token _).bind ?_
  rintro _ rfl
  refine (takes_settle _ _).bind ?_
  rintro _ ⟨line, rfl⟩
  refine (takes_arguments c ts).bind ?_
  rintro ⟨args, line'⟩ hargs
  refine (takes_suffixes_end _ hend).mono ?_
  rintro _ rfl
  obtain rfl : args = [c.expr] := hargs
  exact ⟨line, line', rfl⟩

/-- **A call is a statement.** -/
lemma takes_statement (c : GlobalCall) (hname : utf8 c.name ≠ environment)
    (hend : ts.headD .eof = .eof ∨ ∃ name, ts.headD .eof = .name name) :
    Takes ends depth (statement fuel) (c.tokens ++ ts) ts (∃ s, c.Is s ∧ · = [s]) := by
  have hnot (s : String) : Takes ends (depth + 1) (at? s) ts ts (· = false) := by
    refine (takes_at? s ts).mono ?_
    rintro _ rfl
    rcases hend with hend | ⟨name, hend⟩ <;> rw [hend] <;> rfl
  have hexpression (fuel : Nat) :
      Takes ends (depth + 1) (expressionStatement fuel) (c.tokens ++ ts) ts
      (∃ s, c.Is s ∧ · = [s]) := by
    rcases fuel with _ | fuel <;> rw [expressionStatement]
    · exact takes_tooDeep
    refine (takes_call c hname hend).bind ?_
    rintro _ ⟨line, line', rfl⟩
    refine (((hnot "=").bind ?_ : Takes _ _ _ ts ts (· = false))).bind ?_
    · rintro _ rfl
      exact hnot ","
    · rintro _ rfl
      exact takes_pure ⟨_, ⟨line, line', rfl⟩, rfl⟩
  rcases fuel with _ | fuel <;> rw [statement]
  · exact takes_tooDeep
  refine takes_nested <| (takes_line _).bind fun opened _ => (takes_token _).bind ?_
  rintro _ rfl
  exact hexpression fuel

/-! ## Statements -/

/-- Calls have no environment for a name, and end where the next call starts. -/
lemma headD_tokens (calls : List GlobalCall) :
    (calls.flatMap GlobalCall.tokens).headD .eof = .eof ∨
      ∃ name, (calls.flatMap GlobalCall.tokens).headD .eof = .name name := by
  cases calls with
  | nil => exact .inl rfl
  | cons c calls => exact .inr ⟨utf8 c.name, rfl⟩

/-- A block of calls ends behind the last of them. -/
lemma takes_atBlockEnd (calls : List GlobalCall) :
    Takes ends depth (atBlockEnd true) (calls.flatMap GlobalCall.tokens)
      (calls.flatMap GlobalCall.tokens)
      (· = calls.isEmpty) := by
  rw [atBlockEnd]
  refine (takes_token _).bind ?_
  rintro _ rfl
  cases calls <;> exact takes_pure rfl

/-- **Calls are statements one after another.** -/
theorem takes_statements {calls : List GlobalCall} (hnames : ∀ c ∈ calls, utf8 c.name ≠ environment)
    (done : List Stmt) :
    Takes ends depth (statements fuel done) (calls.flatMap GlobalCall.tokens) []
      (∃ body, calls.Forall₂ GlobalCall.Is body ∧ · = done.reverse ++ body) := by
  induction calls generalizing done fuel with
  | nil =>
    rcases fuel with _ | fuel <;> rw [statements]
    · exact takes_tooDeep
    refine (takes_atBlockEnd []).bind ?_
    rintro _ rfl
    exact takes_pure ⟨[], .nil, by simp⟩
  | cons c calls ih =>
    rw [List.forall_mem_cons] at hnames
    rcases fuel with _ | fuel <;> rw [statements]
    · exact takes_tooDeep
    refine (takes_atBlockEnd (c :: calls)).bind ?_
    rintro _ rfl
    refine (takes_at? "return" _).bind ?_
    rintro _ rfl
    refine (takes_statement c hnames.1 (headD_tokens calls)).bind ?_
    rintro _ ⟨s, hs, rfl⟩
    refine (ih hnames.2 _).mono ?_
    rintro _ ⟨body, hbody, rfl⟩
    exact ⟨s :: body, .cons hs hbody, by simp⟩

/-- **A script of calls**, when it is parsed at all, comes to its end, and is parsed to a function
without parameters that makes the calls one after another. -/
theorem ofScript_calls {text : Bytes} {calls : List GlobalCall} {proto : Proto}
    (htokens : (Lexemes.ofScript text).Are ends (calls.flatMap GlobalCall.tokens))
    (hnames : ∀ c ∈ calls, utf8 c.name ≠ environment) (h : ofScript text = .ok proto) :
    ends ∧ proto.parameters = 0 ∧ calls.Forall₂ GlobalCall.Is proto.body := by
  unfold ofScript at h
  obtain ⟨⟨current, rest⟩, hlexemes, h⟩ := Source.bind_eq_ok.1 h
  obtain ⟨⟨proto', p'⟩, hscript, h⟩ := Source.bind_eq_ok.1 h
  cases h
  obtain ⟨hcurrent, hrest, hended⟩ := of_ofLexemes htokens hlexemes
  obtain ⟨⟨_, p⟩, hstatements, hend⟩ := Source.bind_eq_ok.1 hscript
  obtain ⟨hp, body, hbody, rfl⟩ :=
    takes_statements hnames [] _ ⟨hcurrent, hrest, hended, rfl, rfl⟩ _ p hstatements
  -- at the end of the script its only block is left
  obtain ⟨⟨token, line, spelling⟩, rest, takenLine, scopes, depth⟩ := p
  obtain rfl : token = .eof := hp.current
  obtain rfl : scopes = [wholeScript] := hp.scopes
  cases hend
  exact ⟨hp.ended rfl, rfl, hbody⟩

end Parser

end BracketTemplate.Script
