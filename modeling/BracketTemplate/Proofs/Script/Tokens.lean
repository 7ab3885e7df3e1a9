import Mathlib
import BracketTemplate.Proofs.Script.Lexing
import BracketTemplate.Proofs.Script.Lines

/-!
# Tokens in front of a line end

A literal stands alone in some code when it is the only token there (`Literal.ofCode?`).  Then it is
the first token of the code on lines of its own, and a parenthesis behind them is the second
(`reads_code`): what is read of the code is read of it in front of a line end, too
(`Lexer.next_append`), and white space and comments behind the literal are passed over with the line
end (`Lexer.next_eof_append`).
-/

namespace BracketTemplate.Script

variable {m : Bytes}

/-! ## Literals -/

/-- A literal. -/
inductive Literal where
  | nil
  | bool (b : Bool)
  | number (n : Number)
  | string (text : Bytes)

/-- The literal that a token is. -/
def Token.literal? : Token → Option Literal
  | .keyword "nil" => some .nil
  | .keyword "true" => some (.bool true)
  | .keyword "false" => some (.bool false)
  | .number n => some (.number n)
  | .string text => some (.string text)
  | _ => none

/-- The token that a literal is written as. -/
def Literal.token : Literal → Token
  | nil => .keyword "nil"
  | bool b => .keyword (if b then "true" else "false")
  | number n => .number n
  | string text => .string text

/-- The literal that some code is; white space and comments are no part of it, and blank code is
`nil`. -/
def Literal.ofCode? (code : String) : Option Literal :=
  if isBlank code.toList then some .nil
  else
    match Lexemes.ofScript (utf8 code) with
    | .cons l (.eof _) => l.token.literal?
    | _ => none

lemma Token.eq_of_literal? {t : Token} {l : Literal} (h : t.literal? = some l) : t = l.token := by
  unfold literal? at h
  split at h <;> cases h <;> rfl

/-- Code that is not blank and is a literal has that for its only token. -/
lemma Literal.exists_of_ofCode? {code : String} {l : Literal} (h : ofCode? code = some l)
    (hblank : isBlank code.toList = false) :
    ∃ (first : Lexeme) (line : Nat),
      Lexemes.ofScript (utf8 code) = .cons first (.eof line) ∧ first.token.literal? = some l := by
  unfold ofCode? at h
  rw [if_neg (by simp [hblank])] at h
  split at h
  next first line hscript => exact ⟨first, line, hscript, h⟩
  · cases h

namespace Lexer

/-! ## Tokens -/

/-- **A literal is the same in front of a line end.** -/
theorem token_append {b : UInt8} {rest out : Bytes} {l : Lexeme} {line line' : Nat}
    (h : token b ⟨b :: rest, line⟩ = .ok (l, ⟨out, line'⟩))
    (hliteral : l.token.literal?.isSome = true) (line₂ : Nat) :
    ∃ l₂ line₃, token b ⟨b :: rest ++ 10 :: m, line₂⟩ = .ok (l₂, ⟨out ++ 10 :: m, line₃⟩) ∧
      l₂.token = l.token := by
  unfold token at h ⊢
  have hhead (p : UInt8 → Bool) (hp : p 10 = false) :
      ((b :: rest ++ 10 :: m).drop 1).head?.any p = ((b :: rest).drop 1).head?.any p := by
    cases rest <;> simp [hp]
  simp only [hhead (fun c => c == 91 || c == 61) rfl, hhead Byte.isDigit rfl]
  split at h
  next hname =>
    rw [if_pos hname]
    have htext : (b :: rest ++ 10 :: m).takeWhile Byte.isNamePart =
        (b :: rest).takeWhile Byte.isNamePart := takeWhile_append_stop rfl _ _
    have hlength : ((b :: rest).takeWhile Byte.isNamePart).length ≤ (b :: rest).length :=
      (List.takeWhile_prefix _).length_le
    simp only [htext, List.drop_append_of_le_length hlength]
    dsimp only at h
    split at h <;> cases h <;> exact ⟨_, _, rfl, rfl⟩
  next hname =>
  rw [if_neg hname]
  split at h
  next hdigit =>
    rw [if_pos hdigit]
    obtain ⟨l₂, hnumeral, htoken⟩ := numeral_append (.inl rfl) h line₂
    exact ⟨l₂, _, hnumeral, htoken⟩
  next hdigit =>
  rw [if_neg hdigit]
  split at h
  next hquote =>
    rw [if_pos hquote]
    obtain ⟨⟨text, behind, line₃⟩, hread, h⟩ := Source.bind_eq_ok.1 h
    obtain ⟨line₄, hread'⟩ := quoted_append (m := m)
      (show (b :: rest).length ≤ (b :: rest ++ 10 :: m).length by simp) hread line₂
    cases h
    exact ⟨_, _, Source.bind_eq_ok.2 ⟨_, hread', rfl⟩, rfl⟩
  next hquote =>
  rw [if_neg hquote]
  split at h
  next hlong =>
    rw [if_pos hlong]
    have hlevel := longLevel?_append (m := m) 91 (by decide) (b :: rest)
    split at h
    next level hopening =>
      simp only [hlevel, hopening]
      obtain ⟨⟨text, behind, line₃⟩, hread, h⟩ := Source.bind_eq_ok.1 h
      obtain ⟨line₄, hread'⟩ := long_append (m := m) hopening hread line₂
      cases h
      exact ⟨_, _, Source.bind_eq_ok.2 ⟨_, hread', rfl⟩, rfl⟩
    · cases h
  next hlong =>
  rw [if_neg hlong]
  split at h
  next hpoint =>
    rw [if_pos hpoint]
    obtain ⟨l₂, hnumeral, htoken⟩ := numeral_append (.inl rfl) h line₂
    exact ⟨l₂, _, hnumeral, htoken⟩
  · -- a symbol is no literal
    split at h <;> cases h <;> cases hliteral

/-- No token is the end of a script. -/
lemma token_ne_eof {b : UInt8} {input out : Input} {l : Lexeme} (h : token b input = .ok (l, out)) :
    l.token ≠ .eof := by
  have hnumeral : ∀ {l out}, numeral input = .ok (l, out) → l.token ≠ .eof := by
    intro l out h
    unfold numeral at h
    dsimp only at h
    split at h <;> cases h
    nofun
  unfold token at h
  dsimp only at h
  split at h
  · split at h <;> cases h <;> nofun
  split at h
  · exact hnumeral h
  split at h
  · obtain ⟨_, -, h⟩ := Source.bind_eq_ok.1 h
    cases h
    nofun
  split at h
  · split at h
    · obtain ⟨_, -, h⟩ := Source.bind_eq_ok.1 h
      cases h
      nofun
    · cases h
  split at h
  · exact hnumeral h
  · split at h <;> cases h <;> nofun

/-! ## White space and comments -/

lemma longBody_length {level opened : Nat} {what : String} {fuel : Nat} {done text : Bytes}
    {input out : Input} (h : longBody level opened what fuel done input = .ok (text, out)) :
    out.rest.length ≤ input.rest.length := by
  induction fuel generalizing done input with
  | zero => cases h
  | succ fuel ih =>
    obtain ⟨rest, line⟩ := input
    rw [longBody] at h
    rcases rest with _ | ⟨b, rest⟩
    · cases h
    · dsimp only at h
      split at h
      · cases h
        exact (List.drop_suffix _ _).length_le
      split at h
      · exact ((ih h).trans (newline_length _ _ _)).trans (Nat.le_succ _)
      · exact (ih h).trans (Nat.le_succ _)

lemma comment_length {input out : Input} (h : comment input = .ok out) :
    out.rest.length ≤ input.rest.length := by
  unfold comment at h
  split at h
  next level hlevel =>
    obtain ⟨⟨text, after⟩, hlong, h⟩ := Source.bind_eq_ok.1 h
    cases h
    refine (longBody_length hlong).trans ?_
    rcases hinside : input.rest.drop (level + 2) with _ | ⟨b, inside⟩
    · simp
    · have hdrop : (b :: inside).length ≤ input.rest.length := by
        rw [← hinside, List.length_drop]
        omega
      dsimp only
      split
      · exact (newline_length _ _ _).trans ((Nat.le_succ _).trans hdrop)
      · exact hdrop
  · cases h
    exact (List.dropWhile_suffix _).length_le

/-- **A comment is the same in front of a line end**, which it does not reach over. -/
lemma comment_append {rest out : Bytes} {line line' : Nat}
    (h : comment ⟨rest, line⟩ = .ok ⟨out, line'⟩)
    (line₂ : Nat) : ∃ line₃, comment ⟨rest ++ 10 :: m, line₂⟩ = .ok ⟨out ++ 10 :: m, line₃⟩ := by
  unfold comment at h ⊢
  have hlevel := longLevel?_append (m := m) 91 (by decide) rest
  split at h
  next level hopening =>
    simp only [hlevel, hopening]
    obtain ⟨⟨text, behind, line₃⟩, hlong, h⟩ := Source.bind_eq_ok.1 h
    obtain ⟨line₄, hlong'⟩ := long_append (m := m) hopening hlong line₂
    cases h
    exact ⟨_, Source.bind_eq_ok.2 ⟨_, hlong', rfl⟩⟩
  next hopening =>
    simp only [hlevel, hopening]
    cases h
    exact ⟨line₂, by rw [dropWhile_append_stop rfl]⟩

/-- More fuel than there are bytes is enough. -/
lemma next_fuel {fuel fuel' : Nat} {input : Input} (h : input.rest.length < fuel)
    (h' : input.rest.length < fuel') : next fuel input = next fuel' input := by
  induction fuel generalizing fuel' input with
  | zero => omega
  | succ fuel ih =>
    obtain ⟨fuel', rfl⟩ : ∃ k, fuel' = k + 1 := ⟨fuel' - 1, by omega⟩
    obtain ⟨rest, line⟩ := input
    rw [next, next]
    rcases rest with _ | ⟨b, rest⟩
    · rfl
    have hless : ∀ {input : Input}, input.rest.length ≤ rest.length →
        next fuel input = next fuel' input := by
      intro input hinput
      rw [List.length_cons] at h h'
      exact ih (by omega) (by omega)
    dsimp only
    have hskip : (Input.skip ⟨b :: rest, line⟩).rest.length ≤ rest.length := le_rfl
    rw [hless (newline_length b rest line), hless hskip]
    split_ifs <;> try rfl
    refine Source.bind_congr_ok fun after hcomment => hless ((comment_length hcomment).trans ?_)
    simp [Input.skip]

/-- **White space is passed over.** -/
lemma next_spaces {spaces rest : Bytes} (hspaces : ∀ b ∈ spaces, Byte.isSpace b = true)
    (hrest : ∀ b ∈ rest.head?, Byte.isSpace b = false) {fuel fuel' : Nat}
    (hfuel : (spaces ++ rest).length < fuel) (hfuel' : rest.length < fuel') (line : Nat) :
    ∃ line', next fuel ⟨spaces ++ rest, line⟩ = next fuel' ⟨rest, line'⟩ := by
  induction hlength : spaces.length using Nat.strong_induction_on generalizing spaces fuel line with
  | _ length ih =>
    rcases spaces with _ | ⟨b, spaces⟩
    · exact ⟨line, next_fuel hfuel hfuel'⟩
    obtain ⟨fuel, rfl⟩ : ∃ k, fuel = k + 1 := ⟨fuel - 1, by omega⟩
    rw [List.length_append, List.length_cons] at hfuel
    rw [List.length_cons] at hlength
    rw [List.forall_mem_cons] at hspaces
    rw [List.cons_append, next]
    dsimp only
    by_cases hnewline : isNewline b = true
    · rw [if_pos hnewline]
      -- a line end can be two bytes, both of them white space
      obtain ⟨left, hleft, hnext, hless⟩ : ∃ left : Bytes, (∀ c ∈ left, Byte.isSpace c = true) ∧
          Input.newline ⟨b :: (spaces ++ rest), line⟩ = ⟨left ++ rest, line + 1⟩ ∧
          left.length ≤ spaces.length := by
        rcases spaces with _ | ⟨c, spaces⟩
        · exact ⟨[], by simp, newline_eq hrest b line, le_rfl⟩
        · unfold Input.newline
          dsimp only [List.cons_append]
          split
          · exact ⟨spaces, fun d hd => hspaces.2 d (by simp [hd]), rfl, by simp⟩
          · exact ⟨c :: spaces, hspaces.2, rfl, le_rfl⟩
      rw [hnext]
      exact ih left.length (by omega) hleft (by rw [List.length_append]; omega) _ rfl
    · rw [if_neg hnewline, if_pos hspaces.1]
      exact ih spaces.length (by omega) hspaces.2 (by rw [List.length_append]; omega) _ rfl

/-- How a lexer goes on from the front of some bytes, by themselves and in front of a line end. -/
inductive Passes (m : Bytes) (b : UInt8) (rest : Bytes) (line line₂ : Nat) : Prop
  /-- A token starts. -/
  | token (hself : ∀ fuel, next (fuel + 1) ⟨b :: rest, line⟩ = token b ⟨b :: rest, line⟩)
      (hfront : ∀ fuel, next (fuel + 1) ⟨b :: rest ++ 10 :: m, line₂⟩ =
        token b ⟨b :: rest ++ 10 :: m, line₂⟩)
  /-- White space or a comment is passed over. -/
  | passed {out : Bytes} {line' line₃ : Nat} (hout : out.length ≤ rest.length)
      (hself : ∀ fuel, next (fuel + 1) ⟨b :: rest, line⟩ = next fuel ⟨out, line'⟩)
      (hfront : ∀ fuel, next (fuel + 1) ⟨b :: rest ++ 10 :: m, line₂⟩ =
        next fuel ⟨out ++ 10 :: m, line₃⟩)
  /-- A line end comes last, so the one behind it can be a part of it. -/
  | last (hrest : rest = []) (hnewline : isNewline b = true)
      (hself : ∀ fuel, next (fuel + 1) ⟨b :: rest, line⟩ = next fuel ⟨[], line + 1⟩)
  /-- A comment does not end. -/
  | fault (f : SyntaxFault) (hself : ∀ fuel, next (fuel + 1) ⟨b :: rest, line⟩ = .error f)

lemma passes (m : Bytes) (b : UInt8) (rest : Bytes) (line line₂ : Nat) :
    Passes m b rest line line₂ := by
  by_cases hnewline : isNewline b = true
  · have hself (rest : Bytes) (line fuel : Nat) :
        next (fuel + 1) ⟨b :: rest, line⟩ = next fuel (Input.newline ⟨b :: rest, line⟩) := by
      rw [next]
      exact if_pos hnewline
    rcases rest with _ | ⟨c, rest⟩
    · exact .last rfl hnewline (hself [] line)
    · have hfront (fuel : Nat) : next (fuel + 1) ⟨b :: c :: rest ++ 10 :: m, line₂⟩ =
          next fuel ⟨(Input.newline ⟨b :: c :: rest, line⟩).rest ++ 10 :: m, line₂ + 1⟩ := by
        rw [← newline_append]
        exact hself (c :: rest ++ 10 :: m) line₂ fuel
      exact .passed (newline_length b (c :: rest) line) (hself (c :: rest) line) hfront
  by_cases hspace : Byte.isSpace b = true
  · have hself (rest : Bytes) (line fuel : Nat) :
        next (fuel + 1) ⟨b :: rest, line⟩ = next fuel ⟨rest, line⟩ := by
      rw [next]
      dsimp only
      rw [if_neg hnewline, if_pos hspace]
      rfl
    exact .passed le_rfl (hself rest line) (hself (rest ++ 10 :: m) line₂)
  by_cases hdashes : b = 45 ∧ rest.head? = some 45
  · obtain ⟨rfl, hhead⟩ := hdashes
    obtain ⟨more, rfl⟩ := List.head?_eq_some_iff.1 hhead
    have hself (more : Bytes) (line fuel : Nat) :
        next (fuel + 1) ⟨45 :: 45 :: more, line⟩ = comment ⟨more, line⟩ >>= next fuel := rfl
    have hread {more out : Bytes} {line line' : Nat} (h : comment ⟨more, line⟩ = .ok ⟨out, line'⟩)
        (fuel : Nat) : next (fuel + 1) ⟨45 :: 45 :: more, line⟩ = next fuel ⟨out, line'⟩ := by
      rw [hself, h]
      rfl
    rcases hcomment : comment ⟨more, line⟩ with f | ⟨out, line'⟩
    · exact .fault f fun fuel => by rw [hself, hcomment]; rfl
    · obtain ⟨line₃, hcomment'⟩ := comment_append (m := m) hcomment line₂
      exact .passed ((comment_length hcomment).trans (Nat.le_succ _)) (hread hcomment)
        (hread hcomment')
  · have hself (rest : Bytes) (hrest : ¬(b = 45 ∧ rest.head? = some 45)) (line fuel : Nat) :
        next (fuel + 1) ⟨b :: rest, line⟩ = token b ⟨b :: rest, line⟩ := by
      rw [next]
      dsimp only
      rw [if_neg hnewline, if_neg hspace, if_neg (by simpa using hrest)]
    have hhead : (rest ++ 10 :: m).head? = some 45 ↔ rest.head? = some 45 := by
      cases rest <;> simp
    exact .token (hself rest hdashes line)
      (hself (rest ++ 10 :: m) (by rwa [hhead]) line₂)

/-- **A literal behind white space and comments is the same in front of a line end.** -/
theorem next_append {fuel fuel' : Nat} {text out : Bytes} {l : Lexeme} {line line' : Nat}
    (h : next fuel ⟨text, line⟩ = .ok (l, ⟨out, line'⟩)) (hliteral : l.token.literal?.isSome = true)
    (hfuel' : (text ++ 10 :: m).length < fuel') (line₂ : Nat) :
    ∃ l₂ line₃, next fuel' ⟨text ++ 10 :: m, line₂⟩ = .ok (l₂, ⟨out ++ 10 :: m, line₃⟩) ∧
      l₂.token = l.token := by
  have hend : l.token ≠ .eof := by
    intro heof
    rw [heof] at hliteral
    cases hliteral
  induction fuel generalizing fuel' text line line₂ with
  | zero =>
    cases h
    exact absurd rfl hend
  | succ fuel ih =>
    obtain ⟨fuel', rfl⟩ : ∃ k, fuel' = k + 1 := ⟨fuel' - 1, by omega⟩
    rcases text with _ | ⟨b, rest⟩
    · cases h
      exact absurd rfl hend
    cases passes m b rest line line₂ with
    | token hself hfront =>
      rw [hself] at h
      rw [hfront]
      exact token_append h hliteral line₂
    | passed hout hself hfront =>
      rw [hself] at h
      rw [hfront]
      rw [List.length_append, List.length_cons] at hfuel'
      exact ih h (by rw [List.length_append]; omega) _
    | last hrest hnewline hself =>
      rw [hself] at h
      cases fuel <;> cases h <;> exact absurd rfl hend
    | fault f hself =>
      rw [hself] at h
      cases h

/-- **White space and comments at the end of a script are passed over with a line end behind
them.** -/
theorem next_eof_append {fuel fuel' fuel'' : Nat} {text : Bytes} {l : Lexeme} {out : Input}
    {line : Nat} (h : next fuel ⟨text, line⟩ = .ok (l, out)) (heof : l.token = .eof)
    (hm : ∀ b ∈ m.head?, Byte.isSpace b = false) (hfuel : text.length < fuel)
    (hfuel' : (text ++ 10 :: m).length < fuel') (hfuel'' : m.length < fuel'') (line₂ : Nat) :
    ∃ line₃, next fuel' ⟨text ++ 10 :: m, line₂⟩ = next fuel'' ⟨m, line₃⟩ := by
  induction fuel generalizing fuel' text line line₂ with
  | zero => omega
  | succ fuel ih =>
    obtain ⟨fuel', rfl⟩ : ∃ k, fuel' = k + 1 := ⟨fuel' - 1, by omega⟩
    rcases text with _ | ⟨b, rest⟩
    · have hspaces : ∀ c ∈ [10], Byte.isSpace c = true := by simp; rfl
      exact next_spaces hspaces hm hfuel' hfuel'' line₂
    rw [List.length_cons] at hfuel
    cases passes m b rest line line₂ with
    | token hself hfront =>
      rw [hself] at h
      exact absurd heof (token_ne_eof h)
    | passed hout hself hfront =>
      rw [hself] at h
      rw [hfront]
      rw [List.length_append, List.length_cons] at hfuel'
      exact ih h (by omega) (by rw [List.length_append]; omega) _
    | last hrest hnewline hself =>
      subst hrest
      have hspaces : ∀ c ∈ [b, 10], Byte.isSpace c = true := by
        simp [isSpace_of_isNewline hnewline]
        rfl
      exact next_spaces hspaces hm hfuel' hfuel'' line₂
    | fault f hself =>
      rw [hself] at h
      cases h

/-! ## Symbols and words -/

/-- A symbol of one byte, which no symbol before it starts with. -/
lemma symbol?_eq {b : UInt8} {s : String} (hs : utf8 s = [b])
    (hfirst : symbols.find? (fun t => (utf8 t).head?.all (· == b)) = some s) :
    symbol? (b :: m) = some s := by
  obtain ⟨-, before, behind, hsymbols, hbefore⟩ := List.find?_eq_some_iff_append.1 hfirst
  refine List.find?_eq_some_iff_append.2
    ⟨by rw [hs]; simp, before, behind, hsymbols, fun t ht => ?_⟩
  have hother := hbefore t ht
  cases htext : utf8 t with
  | nil =>
    rw [htext] at hother
    cases hother
  | cons c rest =>
    have hne : (c == b) = false := by simpa [htext] using hother
    rw [List.isPrefixOf_cons_cons, hne]
    rfl

end Lexer

/-! ## Reading tokens -/

/-- A token is read at the front of some bytes, and so much is left behind it. -/
def Reads (text : Bytes) (t : Token) (out : Bytes) : Prop :=
  ∀ fuel line, text.length < fuel →
    ∃ l line', Lexer.next fuel ⟨text, line⟩ = .ok (l, ⟨out, line'⟩) ∧ l.token = t

/-- White space in front of a token does not matter. -/
lemma Reads.spaces {spaces text out : Bytes} {t : Token} (h : Reads text t out)
    (hspaces : ∀ b ∈ spaces, Byte.isSpace b = true)
    (htext : ∀ b ∈ text.head?, Byte.isSpace b = false) : Reads (spaces ++ text) t out := by
  intro fuel line hfuel
  obtain ⟨line', hnext⟩ := Lexer.next_spaces hspaces htext hfuel (Nat.lt_succ_self text.length) line
  rw [hnext]
  exact h _ line' (Nat.lt_succ_self _)

/-- A token that is no comment is read where it starts. -/
lemma reads_of_token {b : UInt8} {rest out : Bytes} {t : Token} (hspace : Byte.isSpace b = false)
    (hdash : b ≠ 45)
    (h : ∀ line, ∃ l line', Lexer.token b ⟨b :: rest, line⟩ = .ok (l, ⟨out, line'⟩) ∧ l.token = t) :
    Reads (b :: rest) t out := by
  intro fuel line hfuel
  obtain ⟨fuel, rfl⟩ : ∃ k, fuel = k + 1 := ⟨fuel - 1, by omega⟩
  have hnewline : Lexer.isNewline b = false := Lexer.isNewline_eq_false hspace
  rw [Lexer.next]
  simp only [hnewline, hspace, beq_eq_false_iff_ne.2 hdash, Bool.false_and, Bool.false_eq_true,
    if_false]
  exact h line

/-- An opening parenthesis is read. -/
lemma reads_opening (m : Bytes) : Reads (40 :: m) (.symbol "(") m :=
  reads_of_token rfl (by decide) fun line => by
    have hsymbol : Lexer.symbol? (40 :: m) = some "(" :=
      Lexer.symbol?_eq (by decide +kernel) (by decide +kernel)
    have hlength : (utf8 "(").length = 1 := by decide +kernel
    refine ⟨⟨.symbol "(", line, utf8 "("⟩, line, ?_, rfl⟩
    rw [Lexer.token]
    simp only [hsymbol, hlength]
    rfl

/-- A closing parenthesis is read. -/
lemma reads_closing (m : Bytes) : Reads (41 :: m) (.symbol ")") m :=
  reads_of_token rfl (by decide) fun line => by
    have hsymbol : Lexer.symbol? (41 :: m) = some ")" :=
      Lexer.symbol?_eq (by decide +kernel) (by decide +kernel)
    have hlength : (utf8 ")").length = 1 := by decide +kernel
    refine ⟨⟨.symbol ")", line, utf8 ")"⟩, line, ?_, rfl⟩
    rw [Lexer.token]
    simp only [hsymbol, hlength]
    rfl

/-- A word is read up to a byte that no word has. -/
lemma reads_word {b x : UInt8} {rest : Bytes} (hb : Byte.isNameStart b = true)
    (hrest : ∀ c ∈ rest, Byte.isNamePart c = true) (hx : Byte.isNamePart x = false)
    (hspace : Byte.isSpace b = false) (hdash : b ≠ 45) (m : Bytes) :
    Reads (b :: rest ++ x :: m)
      (match keywords.find? fun k => utf8 k == b :: rest with
        | some k => .keyword k
        | none => .name (b :: rest)) (x :: m) := by
  have htext : (b :: rest ++ x :: m).takeWhile Byte.isNamePart = b :: rest := by
    have hpart : Byte.isNamePart b = true := by simp [Byte.isNamePart, hb]
    rw [takeWhile_append_stop hx, List.takeWhile_cons_of_pos hpart,
      List.takeWhile_eq_self_iff.2 hrest]
  rw [List.cons_append] at htext ⊢
  refine reads_of_token hspace hdash fun line => ?_
  rw [Lexer.token, if_pos hb]
  simp only [htext]
  rw [← List.cons_append, List.drop_left]
  cases keywords.find? fun k => utf8 k == b :: rest <;> exact ⟨_, _, rfl, rfl⟩

/-- A first token has been read, and those behind it from where it ends. -/
lemma Lexemes.exists_of_cons {fuel : Nat} {input : Lexer.Input} {l : Lexeme} {rest : Lexemes}
    (h : ofInput (fuel + 1) input = .cons l rest) :
    ∃ after, Lexer.next (input.rest.length + 1) input = .ok (l, after) ∧
      ofInput fuel after = rest := by
  rw [ofInput] at h
  split at h
  · cases h
  next l after hread =>
    split at h
    · cases h
    · obtain ⟨rfl, hrest⟩ := Lexemes.cons.inj h
      exact ⟨after, (Lexer.read_eq_ok.1 hread).1, hrest⟩

/-- Where there are no tokens the end has been read. -/
lemma Lexemes.exists_of_eof {fuel line : Nat} {input : Lexer.Input}
    (h : ofInput (fuel + 1) input = .eof line) :
    ∃ l after, Lexer.next (input.rest.length + 1) input = .ok (l, after) ∧ l.token = .eof := by
  rw [ofInput] at h
  split at h
  · cases h
  next l after hread =>
    split at h
    next heof => exact ⟨l, after, (Lexer.read_eq_ok.1 hread).1, heof⟩
    · cases h

/-- Bytes are white space and something behind it. -/
lemma exists_spaces (text : Bytes) : ∃ spaces body, text = spaces ++ body ∧
    (∀ b ∈ spaces, Byte.isSpace b = true) ∧ ∀ b ∈ body.head?, Byte.isSpace b = false := by
  refine ⟨text.takeWhile Byte.isSpace, text.dropWhile Byte.isSpace, by simp,
    fun b => List.mem_takeWhile_imp, fun b hb => ?_⟩
  have hhead := List.head?_dropWhile_not Byte.isSpace text
  rw [hb] at hhead
  simpa using hhead

/-- **Code that is a literal** is read on lines of its own, up to the parenthesis behind them. -/
theorem reads_code {code : Bytes} {first : Lexeme} {line : Nat}
    (hscript : Lexemes.ofScript code = .cons first (.eof line))
    (hliteral : first.token.literal?.isSome = true) (m : Bytes) :
    ∃ behind, Reads (10 :: code ++ 10 :: 41 :: m) first.token behind ∧
      Reads behind (.symbol ")") m := by
  -- the code is read up to its end
  obtain ⟨⟨behind, line₁⟩, hnext, hrest⟩ := Lexemes.exists_of_cons hscript
  have hcode : code ≠ [] := by
    rintro rfl
    cases hnext
    cases hliteral
  obtain ⟨size, hsize⟩ := Nat.exists_eq_succ_of_ne_zero fun h => hcode (List.length_eq_zero_iff.1 h)
  rw [hsize] at hrest
  obtain ⟨last, after, hend, heof⟩ := Lexemes.exists_of_eof hrest
  -- the white space it starts with is passed over with the line end before it
  obtain ⟨spaces, body, rfl, hspaces, hbody⟩ := exists_spaces code
  obtain ⟨line₂, hbegin⟩ :=
    Lexer.next_spaces hspaces hbody (Nat.lt_succ_self (spaces ++ body).length)
    (Nat.lt_succ_self body.length) 1
  rw [hnext] at hbegin
  have hne : body ≠ [] := by
    rintro rfl
    cases hbegin
    cases hliteral
  refine ⟨behind ++ 10 :: 41 :: m, ?_, fun fuel line₃ hfuel => ?_⟩
  · have hhead : ∀ b ∈ (body ++ 10 :: 41 :: m).head?, Byte.isSpace b = false := by
      rwa [List.head?_append_of_ne_nil _ hne]
    have hfirst : Reads (body ++ 10 :: 41 :: m) first.token (behind ++ 10 :: 41 :: m) := by
      intro fuel line₃ hfuel
      obtain ⟨l, line₄, hread, htoken⟩ := Lexer.next_append hbegin.symm hliteral hfuel line₃
      exact ⟨l, line₄, hread, htoken⟩
    rw [← List.cons_append, List.append_assoc]
    exact hfirst.spaces (by simpa using ⟨rfl, hspaces⟩) hhead
  · obtain ⟨line₄, hread⟩ :=
      Lexer.next_eof_append hend heof (by simp; rfl) (Nat.lt_succ_self _) hfuel
      (Nat.lt_succ_self _) line₃
    rw [hread]
    exact reads_closing m _ line₄ (Nat.lt_succ_self _)

end BracketTemplate.Script
