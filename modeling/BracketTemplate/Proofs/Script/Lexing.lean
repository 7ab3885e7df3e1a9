import Mathlib
import BracketTemplate.Script.Lexer
import BracketTemplate.Proofs.Inclusion.Confined

/-!
# Reading on in front of a line end

A lexer looks ahead of what it reads, so a token can be another one when something follows it.  It
is not when that is a line end: what is read of some bytes is read of them in front of a line end,
too.  This is shown for strings (`Lexer.quoted_append`), long brackets (`Lexer.long_append`) and
numerals (`Lexer.numeral_append`).  The lines that are counted on the way are of no account here.
-/

namespace BracketTemplate.Script

variable {m : Bytes}

/-! ## Lists in front of a stop -/

lemma takeWhile_append_stop {α : Type} {p : α → Bool} {x : α} (hx : p x = false)
    (text more : List α) :
    (text ++ x :: more).takeWhile p = text.takeWhile p := by
  induction text with
  | nil => simp [hx]
  | cons a text ih =>
    rw [List.cons_append, List.takeWhile_cons, List.takeWhile_cons, ih]

lemma dropWhile_append_stop {α : Type} {p : α → Bool} {x : α} (hx : p x = false)
    (text more : List α) :
    (text ++ x :: more).dropWhile p = text.dropWhile p ++ x :: more := by
  induction text with
  | nil => simp [hx]
  | cons a text ih =>
    rw [List.cons_append, List.dropWhile_cons, List.dropWhile_cons, ih]
    split <;> rfl

lemma drop_takeWhile {α : Type} (p : α → Bool) (text : List α) :
    text.drop (text.takeWhile p).length = text.dropWhile p := by
  induction text with
  | nil => rfl
  | cons a text ih =>
    rw [List.takeWhile_cons, List.dropWhile_cons]
    split
    · exact ih
    · rfl

namespace Lexer

/-! ## Line ends and white space -/

lemma isSpace_of_isNewline {b : UInt8} (h : isNewline b = true) : Byte.isSpace b = true := by
  unfold isNewline at h
  simp only [Bool.or_eq_true, beq_iff_eq] at h
  rcases h with rfl | rfl <;> rfl

lemma isNewline_eq_false {b : UInt8} (h : Byte.isSpace b = false) : isNewline b = false := by
  rw [← Bool.not_eq_true] at h ⊢
  exact fun hnewline => h (isSpace_of_isNewline hnewline)

/-- A line end with no white space behind it is one byte. -/
lemma newline_eq {rest : Bytes} (hrest : ∀ b ∈ rest.head?, Byte.isSpace b = false) (b : UInt8)
    (line : Nat) : Input.newline ⟨b :: rest, line⟩ = ⟨rest, line + 1⟩ := by
  rcases rest with _ | ⟨c, rest⟩
  · rfl
  · have hc : isNewline c = false := isNewline_eq_false (hrest c rfl)
    simp [Input.newline, hc]

lemma newline_length (b : UInt8) (rest : Bytes) (line : Nat) :
    (Input.newline ⟨b :: rest, line⟩).rest.length ≤ rest.length := by
  unfold Input.newline
  cases rest with
  | nil => simp
  | cons c rest =>
    dsimp only
    split <;> simp

/-- A line end with something behind it is the same in front of more. -/
lemma newline_append (b c : UInt8) (rest : Bytes) (line line' : Nat) :
    Input.newline ⟨b :: c :: rest ++ 10 :: m, line'⟩ =
      ⟨(Input.newline ⟨b :: c :: rest, line⟩).rest ++ 10 :: m, line' + 1⟩ := by
  unfold Input.newline
  dsimp only [List.cons_append]
  split <;> rfl

lemma skipSpace_rest {fuel : Nat} {input : Input} (h : input.rest.length ≤ fuel) :
    (skipSpace fuel input).rest = input.rest.dropWhile Byte.isSpace := by
  induction fuel generalizing input with
  | zero =>
    rw [List.length_eq_zero_iff.1 (Nat.le_zero.1 h), skipSpace, List.dropWhile_nil]
    exact List.length_eq_zero_iff.1 (Nat.le_zero.1 h)
  | succ fuel ih =>
    obtain ⟨rest, line⟩ := input
    rw [skipSpace]
    rcases rest with _ | ⟨b, rest⟩
    · rfl
    · dsimp only
      by_cases hnewline : isNewline b = true
      · rw [if_pos hnewline, ih ((newline_length _ _ _).trans (Nat.le_of_succ_le_succ h)),
          List.dropWhile_cons_of_pos (isSpace_of_isNewline hnewline)]
        unfold Input.newline
        rcases rest with _ | ⟨c, rest⟩
        · rfl
        · dsimp only
          split
          next hpair =>
            rw [Bool.and_eq_true] at hpair
            rw [List.dropWhile_cons_of_pos (isSpace_of_isNewline hpair.1)]
          next => rfl
      · rw [if_neg hnewline]
        by_cases hspace : Byte.isSpace b = true
        · rw [if_pos hspace, List.dropWhile_cons_of_pos hspace,
            ih (by simpa [Input.skip] using Nat.le_of_succ_le_succ h)]
          rfl
        · rw [if_neg hspace, List.dropWhile_cons_of_neg hspace]

/-! ## Long brackets -/

lemma longLevel?_append (bracket : UInt8) (hbracket : bracket ≠ 10) (rest : Bytes) :
    longLevel? bracket (rest ++ 10 :: m) = longLevel? bracket rest := by
  unfold longLevel?
  rcases rest with _ | ⟨b, rest⟩
  · simp [hbracket.symm]
  · dsimp only [List.cons_append]
    have htake : (rest ++ 10 :: m).takeWhile (· == 61) = rest.takeWhile (· == 61) :=
      takeWhile_append_stop rfl rest m
    have hhead : ((rest ++ 10 :: m).drop (rest.takeWhile (· == 61)).length).head? = some bracket ↔
        (rest.drop (rest.takeWhile (· == 61)).length).head? = some bracket := by
      rw [← htake, drop_takeWhile, htake, drop_takeWhile, dropWhile_append_stop (by rfl) rest m]
      rcases rest.dropWhile (· == 61) with _ | ⟨c, behind⟩
      · simp [hbracket.symm]
      · rfl
    rw [htake]
    simp only [beq_iff_eq, hhead]

lemma longLevel?_length {bracket : UInt8} {rest : Bytes} {level : Nat}
    (h : longLevel? bracket rest = some level) : level + 2 ≤ rest.length := by
  unfold longLevel? at h
  rcases rest with _ | ⟨b, rest⟩
  · cases h
  · dsimp only at h
    split at h
    · cases h
    split at h
    next hhead =>
      cases h
      have hlt : (rest.takeWhile (· == 61)).length < rest.length := by
        by_contra hle
        rw [List.drop_eq_nil_of_le (not_lt.1 hle)] at hhead
        cases hhead
      rw [List.length_cons]
      omega
    · cases h

/-- **A long bracket ends where it ends**, whatever stands behind it. -/
lemma longBody_append {level opened opened' : Nat} {what what' : String} {fuel fuel' : Nat}
    (hfuel : fuel ≤ fuel') {done rest text out : Bytes} {line line' : Nat}
    (h : longBody level opened what fuel done ⟨rest, line⟩ = .ok (text, ⟨out, line'⟩))
    (line₂ : Nat) :
    ∃ line₃, longBody level opened' what' fuel' done ⟨rest ++ 10 :: m, line₂⟩ =
      .ok (text, ⟨out ++ 10 :: m, line₃⟩) := by
  induction fuel generalizing fuel' done rest line line₂ with
  | zero => cases h
  | succ fuel ih =>
    obtain ⟨fuel', rfl⟩ : ∃ k, fuel' = k + 1 := ⟨fuel' - 1, by omega⟩
    rw [longBody] at h ⊢
    rcases rest with _ | ⟨b, rest⟩
    · cases h
    · have hlevel := longLevel?_append (m := m) 93 (by decide) (b :: rest)
      dsimp only [List.cons_append] at h hlevel ⊢
      simp only [hlevel]
      split at h
      next hhere =>
        cases h
        have hlength := longLevel?_length (beq_iff_eq.1 hhere)
        refine ⟨line₂, ?_⟩
        rw [if_pos hhere, ← List.cons_append, List.drop_append_of_le_length hlength]
      next hnot =>
        rw [if_neg hnot]
        split at h
        next hnewline =>
          rw [if_pos hnewline]
          rcases rest with _ | ⟨c, rest⟩
          · cases fuel <;> cases h
          · have happend := newline_append (m := m) b c rest line line₂
            rw [List.cons_append] at happend
            rw [happend]
            exact ih (by omega) h _
        next hplain =>
          rw [if_neg hplain]
          exact ih (by omega) h _

/-- **So does a long bracket from its opening on.** -/
lemma long_append {level : Nat} {what : String} {rest text out : Bytes} {line line' : Nat}
    (hlevel : longLevel? 91 rest = some level)
    (h : long level what ⟨rest, line⟩ = .ok (text, ⟨out, line'⟩)) (line₂ : Nat) :
    ∃ line₃, long level what ⟨rest ++ 10 :: m, line₂⟩ = .ok (text, ⟨out ++ 10 :: m, line₃⟩) := by
  have hlength := longLevel?_length hlevel
  unfold long at h ⊢
  dsimp only at h ⊢
  rw [List.drop_append_of_le_length hlength]
  rcases hinside : rest.drop (level + 2) with _ | ⟨b, inside⟩
  · rw [hinside] at h
    cases h
  · rw [hinside] at h
    dsimp only [List.cons_append] at h ⊢
    by_cases hnewline : isNewline b = true
    · rw [if_pos hnewline] at h ⊢
      rcases inside with _ | ⟨c, inside⟩
      · cases h
      · have happend := newline_append (m := m) b c inside line line₂
        rw [List.cons_append] at happend
        rw [happend]
        exact longBody_append (by simp) h _
    · rw [if_neg hnewline] at h ⊢
      exact longBody_append (by simp) h _

/-! ## Strings -/

lemma unicodeDigits_append {fuel fuel' n n' : Nat} (hfuel : fuel ≤ fuel')
    {shown shown' rest out : Bytes} {line line' : Nat} (hrest : rest.length ≤ fuel)
    (h : unicodeDigits fuel n shown ⟨rest, line⟩ = .ok (n', shown', ⟨out, line'⟩))
    (shown₂ : Bytes) (line₂ : Nat) :
    ∃ shown₃ line₃, unicodeDigits fuel' n shown₂ ⟨rest ++ 10 :: m, line₂⟩ =
      .ok (n', shown₃, ⟨out ++ 10 :: m, line₃⟩) := by
  induction fuel generalizing fuel' n shown shown₂ rest line line₂ with
  | zero =>
    obtain rfl := List.length_eq_zero_iff.1 (Nat.le_zero.1 hrest)
    cases h
    cases fuel' <;> exact ⟨shown₂, line₂, rfl⟩
  | succ fuel ih =>
    obtain ⟨fuel', rfl⟩ : ∃ k, fuel' = k + 1 := ⟨fuel' - 1, by omega⟩
    rw [unicodeDigits] at h ⊢
    rcases rest with _ | ⟨b, rest⟩
    · cases h
      exact ⟨shown₂, line₂, rfl⟩
    · dsimp only [List.cons_append] at h ⊢
      rcases hdigit : Byte.hexValue? b with _ | d
      · simp only [hdigit] at h ⊢
        cases h
        exact ⟨shown₂, line₂, rfl⟩
      · simp only [hdigit] at h ⊢
        split at h
        · cases h
        next hsmall =>
          rw [if_neg hsmall]
          exact ih (by omega) (Nat.le_of_succ_le_succ hrest) h _ _

/-- What is read with something left behind it is read in front of more, too. -/
def Kept (m : Bytes) (x y : Except SyntaxFault (Bytes × Input)) : Prop :=
  ∀ text out line, out ≠ [] → x = .ok (text, ⟨out, line⟩) →
    ∃ line', y = .ok (text, ⟨out ++ 10 :: m, line'⟩)

lemma Kept.ok (text rest : Bytes) (line line' : Nat) :
    Kept m (.ok (text, ⟨rest, line⟩)) (.ok (text, ⟨rest ++ 10 :: m, line'⟩)) := by
  rintro text out line - ⟨⟩
  exact ⟨_, rfl⟩

lemma Kept.failed (input : Input) (wording : String) (shown : Option Bytes)
    (y : Except SyntaxFault (Bytes × Input)) : Kept m (fail input wording shown) y := nofun

lemma Kept.ite {p : Prop} [Decidable p] {x x' y y' : Except SyntaxFault (Bytes × Input)}
    (h : Kept m x y) (h' : Kept m x' y') :
    Kept m (if p then x else x') (if p then y else y') := by
  split
  · exact h
  · exact h'

lemma newline_kept (b : UInt8) (text rest : Bytes) (line line' : Nat) :
    Kept m (.ok (text, Input.newline ⟨b :: rest, line⟩))
      (.ok (text, Input.newline ⟨b :: (rest ++ 10 :: m), line'⟩)) := by
  rcases rest with _ | ⟨c, rest⟩
  · rintro text out line hout ⟨⟩
    exact absurd rfl hout
  · rw [show b :: (c :: rest ++ 10 :: m) = b :: c :: rest ++ 10 :: m from rfl, newline_append]
    exact .ok _ _ _ _

/-- The two digits of a hexadecimal escape. -/
lemma hexEscape_kept (rest : Bytes) (shown shown' : Bytes) (line line' : Nat) :
    Kept m (match rest with
      | [] => failEscape ⟨rest, line⟩ "hexadecimal digit expected" shown
      | c :: more =>
        match Byte.hexValue? c with
        | none => failEscape ⟨rest, line⟩ "hexadecimal digit expected" shown
        | some high =>
          match more.head?.bind Byte.hexValue? with
          | none => failEscape ⟨more, line⟩ "hexadecimal digit expected" (shown ++ [c])
          | some low => .ok ([UInt8.ofNat (high * 16 + low)], ⟨more.drop 1, line⟩))
      (match rest ++ 10 :: m with
      | [] => failEscape ⟨rest ++ 10 :: m, line'⟩ "hexadecimal digit expected" shown'
      | c :: more =>
        match Byte.hexValue? c with
        | none => failEscape ⟨rest ++ 10 :: m, line'⟩ "hexadecimal digit expected" shown'
        | some high =>
          match more.head?.bind Byte.hexValue? with
          | none => failEscape ⟨more, line'⟩ "hexadecimal digit expected" (shown' ++ [c])
          | some low => .ok ([UInt8.ofNat (high * 16 + low)], ⟨more.drop 1, line'⟩)) := by
  rcases rest with _ | ⟨c, more⟩
  · exact .failed _ _ _ _
  rcases hhigh : Byte.hexValue? c with _ | high
  · simp only [List.cons_append, hhigh]
    exact .failed _ _ _ _
  rcases more with _ | ⟨d, more⟩
  · simp only [List.cons_append, hhigh]
    exact .failed _ _ _ _
  rcases hlow : Byte.hexValue? d with _ | low
  · simp only [List.cons_append, List.head?_cons, Option.bind_some, hhigh, hlow]
    exact .failed _ _ _ _
  · simp only [List.cons_append, List.head?_cons, Option.bind_some, hhigh, hlow]
    exact .ok _ _ _ _

/-- The number of a decimal escape. -/
lemma decimalEscape_kept (rest : Bytes) (shown shown' : Bytes) (line line' : Nat) :
    Kept m (let digits := (rest.take 3).takeWhile Byte.isDigit
        let n := Numeral.ofDigits 10 digits
        let after : Input := ⟨rest.drop digits.length, line⟩
        if 255 < n then failEscape after "decimal escape too large" (shown ++ digits)
        else .ok ([UInt8.ofNat n], after))
      (let digits := ((rest ++ 10 :: m).take 3).takeWhile Byte.isDigit
        let n := Numeral.ofDigits 10 digits
        let after : Input := ⟨(rest ++ 10 :: m).drop digits.length, line'⟩
        if 255 < n then failEscape after "decimal escape too large" (shown' ++ digits)
        else .ok ([UInt8.ofNat n], after)) := by
  have hdigits : ((rest ++ 10 :: m).take 3).takeWhile Byte.isDigit =
      (rest.take 3).takeWhile Byte.isDigit := by
    rw [List.take_append]
    rcases hmore : 3 - rest.length with _ | k
    · simp
    · rw [List.take_succ_cons, takeWhile_append_stop rfl]
  have hlength : ((rest.take 3).takeWhile Byte.isDigit).length ≤ rest.length :=
    (List.takeWhile_prefix _).length_le.trans (List.length_take_le' _ _)
  dsimp only
  rw [hdigits, List.drop_append_of_le_length hlength]
  exact .ite (.failed _ _ _ _) (.ok _ _ _ _)

/-- An escape with something behind it is the same in front of more. -/
lemma escape_kept (shown shown' rest : Bytes) (line line' : Nat) :
    Kept m (escape shown ⟨rest, line⟩) (escape shown' ⟨rest ++ 10 :: m, line'⟩) := by
  unfold escape
  rcases rest with _ | ⟨b, rest⟩
  · rintro text out line hout ⟨⟩
    exact absurd rfl hout
  dsimp only [List.cons_append, Input.skip, List.drop_one, List.tail_cons]
  refine .ite (.ok _ _ _ _) <| .ite (.ok _ _ _ _) <| .ite (.ok _ _ _ _) <| .ite (.ok _ _ _ _) <|
    .ite (.ok _ _ _ _) <| .ite (.ok _ _ _ _) <| .ite (.ok _ _ _ _) <| .ite (.ok _ _ _ _) <|
    .ite (newline_kept b _ rest _ _) <| .ite ?_ <| .ite ?_ <| .ite ?_ (.failed _ _ _ _)
  · have hhex := hexEscape_kept (m := m) rest (shown ++ [b]) (shown' ++ [b]) line line'
    rcases rest with _ | ⟨c, more⟩
    · exact hhex
    · rcases more with _ | ⟨d, more⟩ <;> exact hhex
  · rintro text out lineOut hout h
    rcases rest with _ | ⟨opening, _ | ⟨digit, more⟩⟩
    · cases h
    · simp only [List.drop_succ_cons, List.drop_zero] at h
      split at h
      next heq => cases heq
      · cases h
      · cases h
    · simp only [List.cons_append, List.drop_succ_cons, List.drop_zero] at h ⊢
      by_cases hopening : opening = 123
      · subst hopening
        rcases hdigit : Byte.hexValue? digit with _ | d
        · simp only [hdigit] at h
          cases h
        · simp only [hdigit] at h ⊢
          obtain ⟨⟨n, shown₂, behind, line₂⟩, hread, h⟩ := Source.bind_eq_ok.1 h
          have hlength : (digit :: more).length ≤ (digit :: (more ++ 10 :: m)).length := by simp
          obtain ⟨shown₃, line₃, hread'⟩ := unicodeDigits_append (m := m) hlength (by simp) hread
            (shown' ++ [b] ++ [123] ++ [digit]) line'
          dsimp only at h
          split at h
          next behind =>
            cases h
            exact ⟨line₃, Source.bind_eq_ok.2 ⟨_, hread', rfl⟩⟩
          · cases h
      · split at h
        next heq => exact absurd (List.cons.inj heq).1 hopening
        · cases h
        · cases h
  · exact decimalEscape_kept (b :: rest) shown shown' line line'

lemma quoted_ne_nil {quote : UInt8} {fuel : Nat} {done rest : Bytes} {line : Nat}
    {result : Bytes × Input} (h : quoted quote fuel done ⟨rest, line⟩ = .ok result) :
    rest ≠ [] := by
  rintro rfl
  cases fuel <;> cases h

/-- **A string ends where it ends**, whatever stands behind it. -/
lemma quoted_append {quote : UInt8} {fuel fuel' : Nat} (hfuel : fuel ≤ fuel')
    {done rest text out : Bytes} {line line' : Nat}
    (h : quoted quote fuel done ⟨rest, line⟩ = .ok (text, ⟨out, line'⟩)) (line₂ : Nat) :
    ∃ line₃, quoted quote fuel' done ⟨rest ++ 10 :: m, line₂⟩ =
      .ok (text, ⟨out ++ 10 :: m, line₃⟩) := by
  induction fuel generalizing fuel' done rest line line₂ with
  | zero => cases h
  | succ fuel ih =>
    obtain ⟨fuel', rfl⟩ : ∃ k, fuel' = k + 1 := ⟨fuel' - 1, by omega⟩
    have hfuel : fuel ≤ fuel' := by omega
    rw [quoted] at h ⊢
    rcases rest with _ | ⟨b, rest⟩
    · cases h
    simp only [List.cons_append, Input.skip, List.drop_succ_cons, List.drop_zero] at h ⊢
    have hhead : (rest ++ 10 :: m).head? = some 122 ↔ rest.head? = some 122 := by
      cases rest <;> simp
    split at h
    next hclosing =>
      cases h
      exact ⟨line₂, by rw [if_pos hclosing]⟩
    next hopen =>
    rw [if_neg hopen]
    split at h
    · cases h
    next hinside =>
    rw [if_neg hinside]
    split at h
    next hescape =>
      rw [if_pos hescape]
      simp only [beq_iff_eq, hhead] at h ⊢
      split at h
      next hspace =>
        -- white space is passed over up to something else, which has to be there
        obtain ⟨behind, rfl⟩ : ∃ behind, rest = 122 :: behind := by
          cases rest <;> simp_all
        rw [if_pos hspace]
        simp only [List.cons_append, List.drop_succ_cons, List.drop_zero] at h ⊢
        have hleft : (skipSpace (122 :: behind).length ⟨behind, line⟩).rest = _ :=
          skipSpace_rest (by simp)
        have hleft' :
            (skipSpace (122 :: (behind ++ 10 :: m)).length ⟨behind ++ 10 :: m, line₂⟩).rest = _ :=
          skipSpace_rest (by simp)
        generalize skipSpace (122 :: behind).length ⟨behind, line⟩ = left at h hleft
        generalize skipSpace (122 :: (behind ++ 10 :: m)).length ⟨behind ++ 10 :: m, line₂⟩ = left'
          at hleft' ⊢
        obtain ⟨left, lineLeft⟩ := left
        obtain ⟨left', lineLeft'⟩ := left'
        obtain rfl : left = behind.dropWhile Byte.isSpace := hleft
        obtain rfl : left' = (behind ++ 10 :: m).dropWhile Byte.isSpace := hleft'
        have hne := quoted_ne_nil h
        rw [List.dropWhile_append, if_neg (by simpa using hne)]
        exact ih hfuel h _
      next hother =>
        rw [if_neg hother]
        obtain ⟨⟨bytes, behind, line₃⟩, hread, h⟩ := Source.bind_eq_ok.1 h
        obtain ⟨line₄, hread'⟩ :=
          escape_kept (m := m) _ (quote :: done.reverse ++ [92]) rest line line₂
          _ _ _ (quoted_ne_nil h) hread
        obtain ⟨line₅, h'⟩ := ih hfuel h line₄
        exact ⟨line₅, Source.bind_eq_ok.2 ⟨_, hread', h'⟩⟩
    next hplain =>
      rw [if_neg hplain]
      exact ih hfuel h _

/-! ## Numerals -/

/-- A byte that ends a numeral, whose exponent has a certain mark. -/
structure Stops (mark x : UInt8) : Prop where
  mark : (Byte.toLower x == mark) = false
  digit : (Byte.isHexDigit x || x == 46) = false
  letter : Byte.isNameStart x = false
  sign : (x == 43 || x == 45) = false

lemma stops_newline {mark : UInt8} (hmark : mark ≠ 10) : Stops mark 10 :=
  ⟨beq_false_of_ne hmark.symm, rfl, rfl, rfl⟩

lemma stops_parenthesis {mark : UInt8} (hmark : mark ≠ 41) : Stops mark 41 :=
  ⟨beq_false_of_ne hmark.symm, rfl, rfl, rfl⟩

lemma Stops.numeralBytes {mark x : UInt8} (hx : Stops mark x) (fuel : Nat) (done : Bytes) :
    numeralBytes mark fuel done (x :: m) = done := by
  cases fuel with
  | zero => rfl
  | succ fuel =>
    cases m <;> rw [Lexer.numeralBytes, if_neg (by simp [hx.mark]), if_neg (by simp [hx.digit]),
      if_neg (by simp [hx.letter])]

/-- A numeral ends before a byte that ends it. -/
lemma numeralBytes_append {mark x : UInt8} (hx : Stops mark x) {fuel fuel' : Nat}
    {done rest : Bytes} (hfuel : rest.length ≤ fuel) (hfuel' : rest.length ≤ fuel') :
    numeralBytes mark fuel' done (rest ++ x :: m) = numeralBytes mark fuel done rest := by
  induction hlength : rest.length using Nat.strong_induction_on
    generalizing fuel fuel' done rest with
  | _ length ih =>
    rcases rest with _ | ⟨b, rest⟩
    · rw [List.nil_append, hx.numeralBytes]
      cases fuel <;> rfl
    rw [List.length_cons] at hfuel hfuel' hlength
    obtain ⟨fuel, rfl⟩ : ∃ k, fuel = k + 1 := ⟨fuel - 1, by omega⟩
    obtain ⟨fuel', rfl⟩ : ∃ k, fuel' = k + 1 := ⟨fuel' - 1, by omega⟩
    have hrest : numeralBytes mark fuel' (b :: done) (rest ++ x :: m) =
        numeralBytes mark fuel (b :: done) rest := ih _ (by omega) (by omega) (by omega) rfl
    rcases rest with _ | ⟨s, more⟩
    · have hstop : numeralBytes mark fuel' (b :: done) (x :: m) = b :: done :=
        hx.numeralBytes fuel' _
      have hdone : numeralBytes mark fuel (b :: done) [] = b :: done := by cases fuel <;> rfl
      rw [List.singleton_append, numeralBytes, numeralBytes, hstop, hdone]
      simp only [hx.sign, Bool.false_eq_true, if_false]
    · rw [List.length_cons] at hfuel hfuel' hlength
      have hmore : numeralBytes mark fuel' (s :: b :: done) (more ++ x :: m) =
          numeralBytes mark fuel (s :: b :: done) more := ih _ (by omega) (by omega) (by omega) rfl
      rw [List.cons_append, List.cons_append] at *
      rw [numeralBytes, numeralBytes, hrest, hmore]

/-- What is taken for a numeral stands at the front. -/
lemma numeralBytes_prefix (mark : UInt8) (fuel : Nat) (done rest : Bytes) :
    ∃ taken, taken <+: rest ∧ numeralBytes mark fuel done rest = taken.reverse ++ done := by
  induction fuel generalizing done rest with
  | zero => exact ⟨[], List.nil_prefix, rfl⟩
  | succ fuel ih =>
    rcases rest with _ | ⟨b, rest⟩
    · exact ⟨[], List.nil_prefix, rfl⟩
    have hone : ∃ taken, taken <+: b :: rest ∧ b :: done = taken.reverse ++ done :=
      ⟨[b], ⟨rest, rfl⟩, rfl⟩
    have hnone : ∃ taken, taken <+: b :: rest ∧ done = taken.reverse ++ done :=
      ⟨[], List.nil_prefix, rfl⟩
    have hmore : ∃ taken, taken <+: b :: rest ∧
        numeralBytes mark fuel (b :: done) rest = taken.reverse ++ done := by
      obtain ⟨taken, htaken, heq⟩ := ih (b :: done) rest
      exact ⟨b :: taken, List.cons_prefix_cons.2 ⟨rfl, htaken⟩, by simp [heq]⟩
    rcases rest with _ | ⟨s, more⟩
    · rw [numeralBytes]
      split_ifs
      · exact hone
      · exact hmore
      · exact hone
      · exact hnone
    · rw [numeralBytes]
      split_ifs
      · obtain ⟨taken, htaken, heq⟩ := ih (s :: b :: done) more
        exact ⟨b :: s :: taken,
          List.cons_prefix_cons.2 ⟨rfl, List.cons_prefix_cons.2 ⟨rfl, htaken⟩⟩, by simp [heq]⟩
      · exact hmore
      · exact hmore
      · exact hone
      · exact hnone

lemma hexBody?_append {b x : UInt8} (hx : x ≠ 120 ∧ x ≠ 88) (rest : Bytes) :
    (Numeral.hexBody? (b :: rest ++ x :: m)).isSome = (Numeral.hexBody? (b :: rest)).isSome := by
  rcases rest with _ | ⟨c, rest⟩
  · by_cases hb : b = 48
    · subst hb
      simp [Numeral.hexBody?, hx]
    · unfold Numeral.hexBody?
      split <;> simp_all
  · by_cases hb : b = 48
    · subst hb
      simp only [List.cons_append, Numeral.hexBody?]
      split <;> rfl
    · unfold Numeral.hexBody?
      split <;> split <;> simp_all

/-- How much of some bytes is the start of a numeral. -/
lemma hexBody?_length {rest : Bytes} (h : (Numeral.hexBody? rest).isSome = true) :
    2 ≤ rest.length := by
  unfold Numeral.hexBody? at h
  split at h
  · simp
  · cases h

/-- **A numeral is the same in front of a byte that ends it.** -/
lemma numeral_append {b x : UInt8} (hx : x = 10 ∨ x = 41) {rest out : Bytes} {l : Lexeme}
    {line line' : Nat} (h : numeral ⟨b :: rest, line⟩ = .ok (l, ⟨out, line'⟩)) (line₂ : Nat) :
    ∃ l₂, numeral ⟨b :: rest ++ x :: m, line₂⟩ = .ok (l₂, ⟨out ++ x :: m, line₂⟩) ∧
      l₂.token = l.token := by
  unfold numeral at h ⊢
  dsimp only at h ⊢
  have hnot : x ≠ 120 ∧ x ≠ 88 := by rcases hx with rfl | rfl <;> decide
  simp only [hexBody?_append hnot rest]
  have hlong : (Numeral.hexBody? (b :: rest)).isSome = true → 2 ≤ (b :: rest).length :=
    hexBody?_length
  generalize (Numeral.hexBody? (b :: rest)).isSome = isHex at h hlong ⊢
  -- what starts a numeral, of whichever base, stands before the line end
  obtain ⟨size, hsize, hstart⟩ : ∃ size, size ≤ (b :: rest).length ∧
      ∀ text : Bytes, (if isHex then text.take 2 else text.take 1) = text.take size := by
    cases isHex
    · exact ⟨1, by simp, fun _ => rfl⟩
    · exact ⟨2, hlong rfl, fun _ => rfl⟩
  have hmark : Stops (if isHex then 112 else 101) x := by
    rcases hx with rfl | rfl
    · exact stops_newline (by cases isHex <;> decide)
    · exact stops_parenthesis (by cases isHex <;> decide)
  generalize (if isHex then 112 else 101 : UInt8) = mark at h hmark ⊢
  simp only [hstart, List.length_take, Nat.min_eq_left hsize] at h ⊢
  have hsize' : size ≤ (b :: rest ++ x :: m).length := hsize.trans (by simp)
  have hbytes (done : Bytes) : numeralBytes mark (b :: rest ++ x :: m).length done
      ((b :: rest).drop size ++ x :: m) =
        numeralBytes mark (b :: rest).length done ((b :: rest).drop size) :=
    numeralBytes_append hmark (by simp) (by simp; omega)
  rw [Nat.min_eq_left hsize', List.take_append_of_le_length hsize,
    List.drop_append_of_le_length hsize, hbytes]
  obtain ⟨taken, ⟨behind, hbehind⟩, htext⟩ := numeralBytes_prefix mark (b :: rest).length
    ((b :: rest).take size).reverse ((b :: rest).drop size)
  rw [htext] at h ⊢
  have hlength : (taken.reverse ++ ((b :: rest).take size).reverse).reverse.length ≤
      (b :: rest).length := by
    have hdrop := congrArg List.length hbehind
    simp only [List.length_append, List.length_drop] at hdrop
    simp only [List.length_reverse, List.length_append, List.length_take]
    omega
  rw [List.drop_append_of_le_length hlength]
  split at h
  next n hn =>
    cases h
    exact ⟨_, rfl, rfl⟩
  · cases h

end Lexer

end BracketTemplate.Script
