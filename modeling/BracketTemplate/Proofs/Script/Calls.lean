import Mathlib
import BracketTemplate.Proofs.Decimal.Numeral
import BracketTemplate.Proofs.Script.Tokens
import BracketTemplate.Template.Lowering

/-!
# The tokens of a lowered program

An instruction is lowered to a call of a global function with one argument: the index of the
instruction, or its code.  When the code of every instruction is a literal (`Instruction.call?`),
the tokens of the script are those of the calls, one after another (`Program.lexes_lower`), whatever
white space and comments there are in the code.  That is so up to the line that a script may not
come to, and a script that ends before it has fewer calls than lines.
-/

namespace BracketTemplate

namespace Script

/-! ## Indices -/

namespace Numeral

/-- A digit as a byte. -/
def digitByte (c : Char) : UInt8 := UInt8.ofNat c.toNat

lemma toNat_digit {c : Char} (h : c.isDigit = true) : 48 ≤ c.toNat ∧ c.toNat ≤ 57 := by
  simp only [Char.isDigit, Bool.and_eq_true, decide_eq_true_eq] at h
  exact ⟨UInt32.le_iff_toNat_le.1 h.1, UInt32.le_iff_toNat_le.1 h.2⟩

lemma toNat_digitByte {c : Char} (h : c.isDigit = true) : (digitByte c).toNat = c.toNat := by
  have hle := toNat_digit h
  simp [digitByte]
  omega

lemma isDigit_digitByte {c : Char} (h : c.isDigit = true) : Byte.isDigit (digitByte c) = true := by
  have hle := toNat_digit h
  have hbyte := toNat_digitByte h
  simp only [Byte.isDigit, Bool.and_eq_true, decide_eq_true_eq, UInt8.le_iff_toNat_le, hbyte]
  exact hle

/-- The digits of a number in bytes. -/
lemma encode_digitsOf (n : Nat) :
    Utf8.encode (Decimal.digitsOf n) = (Decimal.digitsOf n).map digitByte := by
  have hdigit : ∀ c ∈ Decimal.digitsOf n, Utf8.encodeChar c = [digitByte c] := by
    intro c hc
    have hle := toNat_digit (Decimal.isDigit_of_mem_digitsOf hc)
    rw [Utf8.encodeChar, if_pos (by omega), digitByte]
  rw [Utf8.encode, List.map_eq_flatMap]
  exact List.flatMap_congr hdigit

lemma isDigit_of_mem_encode {n : Nat} {b : UInt8} (h : b ∈ Utf8.encode (Decimal.digitsOf n)) :
    Byte.isDigit b = true := by
  rw [encode_digitsOf] at h
  obtain ⟨c, hc, rfl⟩ := List.mem_map.1 h
  exact isDigit_digitByte (Decimal.isDigit_of_mem_digitsOf hc)

/-- The digits of a number stand for it. -/
lemma ofDigits_encode (n : Nat) : ofDigits 10 (Utf8.encode (Decimal.digitsOf n)) = n := by
  have hfold : ∀ (digits : List Char) (start : Nat), (∀ c ∈ digits, c.isDigit = true) →
      (digits.map digitByte).foldl (fun n d => n * 10 + (Byte.hexValue? d).getD 0) start =
        Nat.ofDigitChars 10 digits start := by
    intro digits
    induction digits with
    | nil => exact fun _ _ => rfl
    | cons c digits ih =>
      intro start hdigits
      rw [List.forall_mem_cons] at hdigits
      rw [List.map_cons, List.foldl_cons, ih _ hdigits.2, Nat.ofDigitChars_cons, Byte.hexValue?,
        if_pos (isDigit_digitByte hdigits.1), Option.getD_some, toNat_digitByte hdigits.1, mul_comm]
      rfl
  rw [ofDigits, encode_digitsOf, hfold _ _ fun c => Decimal.isDigit_of_mem_digitsOf]
  exact Decimal.ofDigits_digitsOf n

end Numeral

namespace Byte

variable {b : UInt8}

lemma toNat_of_isDigit (h : isDigit b = true) : 48 ≤ b.toNat ∧ b.toNat ≤ 57 := by
  simp only [isDigit, Bool.and_eq_true, decide_eq_true_eq, UInt8.le_iff_toNat_le] at h
  exact h

lemma ne_of_isDigit (h : isDigit b = true) {c : UInt8} (hc : c.toNat < 48 ∨ 57 < c.toNat) :
    b ≠ c := by
  have hle := toNat_of_isDigit h
  rintro rfl
  omega

lemma isSpace_of_isDigit (h : isDigit b = true) : isSpace b = false := by
  have hle := toNat_of_isDigit h
  simp [isSpace, UInt8.le_iff_toNat_le, ne_of_isDigit h (c := 32) (by decide)]
  omega

lemma isNameStart_of_isDigit (h : isDigit b = true) : isNameStart b = false := by
  have hle := toNat_of_isDigit h
  simp [isNameStart, isAlpha, UInt8.le_iff_toNat_le, ne_of_isDigit h (c := 95) (by decide)]
  omega

lemma toLower_of_isDigit (h : isDigit b = true) : toLower b = b := by
  have hle := toNat_of_isDigit h
  refine if_neg ?_
  simp [UInt8.le_iff_toNat_le]
  omega

end Byte

namespace Numeral

lemma hexBody?_digits {digits : Bytes} (hdigits : ∀ b ∈ digits, Byte.isDigit b = true) :
    hexBody? digits = none := by
  unfold hexBody?
  split
  next x rest =>
    have hx := hdigits x (by simp)
    have hlower : x ≠ 120 := Byte.ne_of_isDigit hx (by decide)
    have hupper : x ≠ 88 := Byte.ne_of_isDigit hx (by decide)
    rw [if_neg (by simp [hlower, hupper])]
  · rfl

/-- Digits are read as the integer that they stand for. -/
lemma read?_digits {digits : Bytes} (hne : digits ≠ [])
    (hdigits : ∀ b ∈ digits, Byte.isDigit b = true) (hsmall : ofDigits 10 digits < 2 ^ 63) :
    read? digits = some (.int (Int64.ofNat (ofDigits 10 digits))) := by
  have htrim : trim digits = digits := by
    have hspace : ∀ text : Bytes, (∀ b ∈ text, Byte.isDigit b = true) →
        text.dropWhile Byte.isSpace = text := by
      intro text htext
      rw [List.dropWhile_eq_self_iff]
      exact fun h => by simp [Byte.isSpace_of_isDigit (htext _ (List.getElem_mem h))]
    rw [trim, hspace _ hdigits, hspace _ (by simpa using hdigits), List.reverse_reverse]
  have hsign : sign digits = (false, digits) := by
    obtain ⟨b, rest, rfl⟩ := List.exists_cons_of_ne_nil hne
    have hb := hdigits b (by simp)
    have hplus : b ≠ 43 := Byte.ne_of_isDigit hb (by decide)
    have hminus : b ≠ 45 := Byte.ne_of_isDigit hb (by decide)
    unfold sign
    split <;> simp_all
  have hall : digits.all Byte.isDigit = true := List.all_eq_true.2 hdigits
  have hinteger : integer? false digits = some (Int64.ofNat (ofDigits 10 digits)) := by
    unfold integer?
    rw [hexBody?_digits hdigits]
    simpa [hall, List.isEmpty_eq_false_iff.2 hne, show twoTo 63 = 2 ^ 63 from rfl] using hsmall
  rw [read?, htrim, hsign]
  simp only [hinteger]

end Numeral

namespace Lexer

/-- Digits are taken for a numeral altogether. -/
lemma numeralBytes_digits {fuel : Nat} {done rest : Bytes} (hfuel : rest.length ≤ fuel)
    (hdigits : ∀ b ∈ rest, Byte.isDigit b = true) :
    numeralBytes 101 fuel done rest = rest.reverse ++ done := by
  induction rest generalizing fuel done with
  | nil => cases fuel <;> rfl
  | cons b rest ih =>
    obtain ⟨fuel, rfl⟩ : ∃ k, fuel = k + 1 := ⟨fuel - 1, by simp at hfuel; omega⟩
    rw [List.forall_mem_cons] at hdigits
    have hhex : Byte.isHexDigit b = true := by simp [Byte.isHexDigit, Byte.hexValue?, hdigits.1]
    have hmark : (Byte.toLower b == 101) = false := by
      rw [Byte.toLower_of_isDigit hdigits.1]
      exact beq_false_of_ne (Byte.ne_of_isDigit hdigits.1 (by decide))
    have hrest : numeralBytes 101 fuel (b :: done) rest = rest.reverse ++ b :: done :=
      ih (by simpa using hfuel) hdigits.2
    cases rest <;> (rw [numeralBytes, hmark, hhex, hrest]; simp)

/-- Digits are an integer. -/
lemma numeral_digits {digits : Bytes} (hne : digits ≠ [])
    (hdigits : ∀ b ∈ digits, Byte.isDigit b = true)
    (hsmall : Numeral.ofDigits 10 digits < 2 ^ 63) (line : Nat) :
    ∃ l, numeral ⟨digits, line⟩ = .ok (l, ⟨[], line⟩) ∧
      l.token = .number (.int (Int64.ofNat (Numeral.ofDigits 10 digits))) := by
  have htext : (numeralBytes 101 digits.length (digits.take 1).reverse
      (digits.drop (digits.take 1).length)).reverse = digits := by
    rw [numeralBytes_digits (by simp) fun b hb => hdigits b (List.mem_of_mem_drop hb)]
    obtain ⟨b, rest, rfl⟩ := List.exists_cons_of_ne_nil hne
    simp
  unfold numeral
  simp only [Numeral.hexBody?_digits hdigits, Option.isSome_none, Bool.false_eq_true, if_false,
    htext, Numeral.read?_digits hne hdigits hsmall, List.drop_length]
  exact ⟨_, rfl, rfl⟩

end Lexer

/-- An index is read up to the parenthesis behind it. -/
lemma reads_index {n : Nat} (hn : n < 2 ^ 63) (m : Bytes) :
    Reads (Utf8.encode (Decimal.digitsOf n) ++ 41 :: m) (.number (.int (Int64.ofNat n)))
      (41 :: m) := by
  have hne : Utf8.encode (Decimal.digitsOf n) ≠ [] := by
    simpa [Numeral.encode_digitsOf] using Decimal.digitsOf_ne_nil n
  have hdigits : ∀ b ∈ Utf8.encode (Decimal.digitsOf n), Byte.isDigit b = true :=
    fun b => Numeral.isDigit_of_mem_encode
  have hvalue := Numeral.ofDigits_encode n
  generalize Utf8.encode (Decimal.digitsOf n) = digits at hne hdigits hvalue ⊢
  obtain ⟨b, rest, rfl⟩ := List.exists_cons_of_ne_nil hne
  have hb := hdigits b (by simp)
  refine reads_of_token (Byte.isSpace_of_isDigit hb) (Byte.ne_of_isDigit hb (by decide))
    fun line => ?_
  obtain ⟨l, hnumeral, htoken⟩ := Lexer.numeral_digits hne hdigits (hvalue ▸ hn) line
  obtain ⟨l₂, hread, htoken₂⟩ := Lexer.numeral_append (m := m) (.inr rfl) hnumeral line
  rw [Lexer.token, Byte.isNameStart_of_isDigit hb, hb, if_neg Bool.false_ne_true, if_pos (by simp)]
  exact ⟨l₂, line, hread, by rw [htoken₂, htoken, hvalue]⟩

/-! ## Tokens one after another -/

/-- Some lexemes have certain tokens, as far as there is no fault.  They come to an end only if it
is known that they may. -/
def Lexemes.Are (ends : Prop) : Lexemes → List Token → Prop
  | .eof _, [] => ends
  | .fault _, _ => True
  | .cons l rest, t :: ts => l.token = t ∧ rest.Are ends ts
  | _, _ => False

/-- From a line on, some bytes have certain tokens, up to their end or to a fault. -/
def Lexes (start : Nat) (ends : Prop) (text : Bytes) (ts : List Token) : Prop :=
  ∀ fuel line, start ≤ line → ts.length < fuel → (Lexemes.ofInput fuel ⟨text, line⟩).Are ends ts

section

variable {start : Nat} {ends : Prop} {text out m : Bytes} {t : Token} {ts : List Token}

lemma Reads.lexes (h : Reads text t out) (ht : t ≠ .eof) (hrest : Lexes start ends out ts) :
    Lexes start ends text (t :: ts) := by
  intro fuel line hline hfuel
  rw [List.length_cons] at hfuel
  obtain ⟨fuel, rfl⟩ : ∃ k, fuel = k + 1 := ⟨fuel - 1, by omega⟩
  obtain ⟨l, line', hnext, rfl⟩ := h (text.length + 1) line (Nat.lt_succ_self _)
  have hon : line ≤ line' := Lexer.onward_next _ _ _ hnext
  rw [Lexemes.ofInput]
  split
  · trivial
  next l' after hread =>
    obtain ⟨rfl, rfl⟩ := Prod.mk.inj (Except.ok.inj (hnext.symm.trans (Lexer.read_eq_ok.1 hread).1))
    split
    next heof => exact absurd heof ht
    · exact ⟨rfl, hrest fuel line' (hline.trans hon) (by omega)⟩

/-- A script ends on a line that it may come to. -/
lemma lexes_nil (start : Nat) : Lexes start (start < Lexer.maxLines) [] [] := by
  intro fuel line hline hfuel
  obtain ⟨fuel, rfl⟩ : ∃ k, fuel = k + 1 := ⟨fuel - 1, by omega⟩
  rw [Lexemes.ofInput]
  split
  · trivial
  next l after hread =>
    obtain ⟨hnext, hlines⟩ := Lexer.read_eq_ok.1 hread
    cases hnext
    exact hline.trans_lt hlines

/-- A line end has no tokens, and one line more begins behind it. -/
lemma lexes_newline (hm : ∀ b ∈ m.head?, Byte.isSpace b = false)
    (hrest : Lexes (start + 1) ends m ts) :
    Lexes start ends (10 :: m) ts := by
  have hread (line : Nat) : Lexer.read ⟨10 :: m, line⟩ = Lexer.read ⟨m, line + 1⟩ := by
    have hnext : Lexer.next ((10 :: m).length + 1) ⟨10 :: m, line⟩ =
        Lexer.next (m.length + 1) ⟨m, line + 1⟩ := by
      rw [← Lexer.newline_eq hm 10 line]
      rfl
    unfold Lexer.read
    dsimp only
    rw [hnext]
  intro fuel line hline hfuel
  obtain ⟨fuel, rfl⟩ : ∃ k, fuel = k + 1 := ⟨fuel - 1, by omega⟩
  have hlexes := hrest (fuel + 1) (line + 1) (Nat.add_le_add_right hline 1) hfuel
  rwa [Lexemes.ofInput, ← hread, ← Lexemes.ofInput] at hlexes

/-- From the line on that is too many there is nothing but a fault. -/
lemma lexes_of_maxLines_le (h : Lexer.maxLines ≤ start) : Lexes start ends text ts := by
  intro fuel line hline hfuel
  obtain ⟨fuel, rfl⟩ : ∃ k, fuel = k + 1 := ⟨fuel - 1, by omega⟩
  obtain ⟨f, hread⟩ := Lexer.exists_read_error ⟨text, line⟩ (h.trans hline)
  rw [Lexemes.ofInput]
  simp only [hread]
  trivial

end

/-! ## Calls -/

/-- A call of a global function with a literal. -/
structure GlobalCall where
  name : String
  argument : Literal
  /-- Whether the literal stands in parentheses of its own. -/
  isWrapped : Bool

namespace GlobalCall

/-- The tokens between the parentheses of a call. -/
def argumentTokens (c : GlobalCall) : List Token :=
  if c.isWrapped then [.symbol "(", c.argument.token, .symbol ")"] else [c.argument.token]

/-- The tokens of a call. -/
def tokens (c : GlobalCall) : List Token :=
  .name (utf8 c.name) :: .symbol "(" :: (c.argumentTokens ++ [.symbol ")"])

lemma tokens_append (c : GlobalCall) (ts : List Token) :
    c.tokens ++ ts =
      .name (utf8 c.name) :: .symbol "(" :: (c.argumentTokens ++ .symbol ")" :: ts) := by
  simp [tokens]

end GlobalCall

/-- The functions that a lowered program calls. -/
def callers : List String := ["__text", "__rootdir", "__workdir", "__print_escaped", "__print_raw"]

lemma head?_caller : ∀ name ∈ callers, (utf8 name).head? = some 95 := by decide +kernel

/-- The name of a function is read up to the parenthesis behind it. -/
lemma reads_caller {name : String} (hname : name ∈ callers) (m : Bytes) :
    Reads (utf8 name ++ 40 :: m) (.name (utf8 name)) (40 :: m) := by
  have hall : ∀ name ∈ callers, (utf8 name).all Byte.isNamePart = true := by decide +kernel
  have hparts := List.all_eq_true.1 (hall name hname)
  obtain ⟨rest, hrest⟩ := List.head?_eq_some_iff.1 (head?_caller name hname)
  rw [hrest] at hparts ⊢
  -- no keyword starts as these names do
  have hheads : ∀ k ∈ keywords, (utf8 k).head? ≠ some 95 := by decide +kernel
  have hkeyword : (keywords.find? fun k => utf8 k == 95 :: rest) = none :=
    List.find?_eq_none.2 fun k hk heq => hheads k hk (by rw [beq_iff_eq.1 heq]; rfl)
  have hword :=
    reads_word (b := 95) (x := 40) rfl (fun c hc => hparts c (List.mem_cons_of_mem _ hc))
    rfl rfl (by decide) m
  rwa [hkeyword] at hword

lemma Literal.token_ne_eof (l : Literal) : l.token ≠ .eof := by cases l <;> nofun

/-- The word for `nil` is read up to a parenthesis. -/
lemma reads_nil (m : Bytes) : Reads (utf8 "nil" ++ 41 :: m) Literal.nil.token (41 :: m) := by
  have hnil : utf8 "nil" = [110, 105, 108] := by decide +kernel
  have hkeyword : (keywords.find? fun k => utf8 k == [110, 105, 108]) = some "nil" := by
    decide +kernel
  have hparts : ∀ c ∈ [105, 108], Byte.isNamePart c = true := by decide +kernel
  have hword := reads_word (b := 110) (x := 41) rfl hparts rfl rfl (by decide) m
  rw [hnil]
  rwa [hkeyword] at hword

end Script

/-! ## The script of a program -/

namespace Instruction

open Script

/-- The call that prints some code, when that is a literal. -/
def printing? (name code : String) : Option GlobalCall :=
  (Literal.ofCode? code).map fun l => ⟨name, l, !isBlank code.toList⟩

/-- The call of the host with the index of an instruction. -/
def indexing (name : String) (index : Nat) : GlobalCall :=
  ⟨name, .number (.int (.ofNat index)), false⟩

/-- The call that an instruction at an index becomes, unless it has code that is no literal. -/
def call? (index : Nat) : Instruction → Option GlobalCall
  | emit _ => some (indexing "__text" index)
  | rootdir _ => some (indexing "__rootdir" index)
  | workdir _ => some (indexing "__workdir" index)
  | escaped code => printing? "__print_escaped" code
  | raw code => printing? "__print_raw" code
  | statement _ => none

end Instruction

namespace Program

open Script

variable {i : Instruction} {index : Nat} {c : GlobalCall} {name code : String}

/-! ### Lines -/

/-- Some bytes are the call of an instruction at an index, on a line: its name, an argument in
parentheses that has the tokens it should have unless the index is too large, and a line end. -/
def IsLine (index : Nat) (c : GlobalCall) (line : Bytes) : Prop :=
  c.name ∈ callers ∧ ∃ argument : Bytes, line = utf8 c.name ++ 40 :: (argument ++ [41, 10]) ∧
    (index < 2 ^ 63 → ∀ start ends m ts, Lexes start ends (41 :: m) ts →
      Lexes start ends (argument ++ 41 :: m) (c.argumentTokens ++ ts))

/-- A line has the tokens of its call. -/
lemma IsLine.lexes {line m : Bytes} {start : Nat} {ends : Prop} {ts : List Token}
    (h : IsLine index c line) (hindex : index < 2 ^ 63) (hrest : Lexes start ends (10 :: m) ts) :
    Lexes start ends (line ++ m) (c.tokens ++ ts) := by
  obtain ⟨hname, argument, rfl, hargument⟩ := h
  have hbytes : utf8 c.name ++ 40 :: (argument ++ [41, 10]) ++ m =
      utf8 c.name ++ 40 :: (argument ++ 41 :: 10 :: m) := by simp
  rw [hbytes, c.tokens_append]
  exact (reads_caller hname _).lexes nofun <| (reads_opening _).lexes nofun <|
    hargument hindex _ _ _ _ <| (reads_closing _).lexes nofun hrest

lemma IsLine.head? {line : Bytes} (h : IsLine index c line) : line.head? = some 95 := by
  obtain ⟨hname, argument, rfl, -⟩ := h
  rw [List.head?_append, head?_caller c.name hname]
  rfl

lemma IsLine.length_le {line : Bytes} (h : IsLine index c line) :
    c.tokens.length ≤ line.length := by
  obtain ⟨hname, argument, rfl, -⟩ := h
  have hlong : ∀ name ∈ callers, 6 ≤ (utf8 name).length := by decide +kernel
  have hargument : c.argumentTokens.length ≤ 3 := by
    unfold GlobalCall.argumentTokens
    split <;> simp
  have hcaller := hlong c.name hname
  simp only [GlobalCall.tokens, List.length_cons, List.length_append, List.length_nil]
  omega

/-- The call of the host with an index is such a line. -/
lemma isLine_indexing (hname : name ∈ callers) (index : Nat) :
    IsLine index (Instruction.indexing name index) (Utf8.encode (indexCall name index)) := by
  refine ⟨hname, Utf8.encode (Decimal.digitsOf index), ?_, fun hindex _ _ m ts hrest =>
    (reads_index hindex m).lexes nofun hrest⟩
  have hopening : Utf8.encode ('(' :: Decimal.digitsOf index) =
    40 :: Utf8.encode (Decimal.digitsOf index) := rfl
  have hclosing : Utf8.encode [')', '\n'] = [41, 10] := rfl
  rw [indexCall, ← List.cons_append, Utf8.encode_append, Utf8.encode_append, hopening, hclosing,
    List.append_assoc]
  rfl

/-- What prints some code passes on the literal that the code is. -/
lemma lexes_argument (hcall : Instruction.printing? name code = some c) {start : Nat} {ends : Prop}
    {m : Bytes} {ts : List Token} (hrest : Lexes start ends (41 :: m) ts) :
    Lexes start ends (Utf8.encode (argument code) ++ 41 :: m) (c.argumentTokens ++ ts) := by
  obtain ⟨l, hl, rfl⟩ := Option.map_eq_some_iff.1 hcall
  unfold argument GlobalCall.argumentTokens
  cases hblank : isBlank code.toList with
  | true =>
    obtain rfl : l = .nil := by simpa [Literal.ofCode?, hblank] using hl.symm
    exact (reads_nil m).lexes (Literal.token_ne_eof _) hrest
  | false =>
    obtain ⟨first, line, hscript, hfirst⟩ := Literal.exists_of_ofCode? hl hblank
    obtain ⟨behind, hread, hclosing⟩ := reads_code hscript (by simp [hfirst]) (41 :: m)
    rw [Token.eq_of_literal? hfirst] at hread
    have hbytes : Utf8.encode ('(' :: '\n' :: code.toList ++ ['\n', ')']) ++ 41 :: m =
        40 :: (10 :: utf8 code ++ 10 :: 41 :: 41 :: m) := by
      have hopening : Utf8.encode ('(' :: '\n' :: code.toList) = 40 :: 10 :: utf8 code := rfl
      have hclosing : Utf8.encode ['\n', ')'] = [10, 41] := rfl
      rw [Utf8.encode_append, hopening, hclosing]
      simp
    rw [if_neg (by simp), hbytes]
    exact (reads_opening _).lexes nofun <| hread.lexes (Literal.token_ne_eof _) <|
      hclosing.lexes nofun hrest

/-- The call that prints some code is such a line. -/
lemma isLine_printing (hname : name ∈ callers) {opening : List Char}
    (hopening : Utf8.encode opening = utf8 name ++ [40])
    (hcall : Instruction.printing? name code = some c) (index : Nat) :
    IsLine index c (Utf8.encode (opening ++ argument code ++ [')', '\n'])) := by
  have hargument := @lexes_argument c name code hcall
  obtain ⟨l, -, rfl⟩ := Option.map_eq_some_iff.1 hcall
  refine ⟨hname, Utf8.encode (argument code), ?_, fun _ _ _ m ts hrest => hargument hrest⟩
  have hclosing : Utf8.encode [')', '\n'] = [41, 10] := rfl
  rw [Utf8.encode_append, Utf8.encode_append, hopening, hclosing]
  simp

/-- **An instruction is lowered to the line of its call.** -/
lemma isLine_lowerAt (hcall : i.call? index = some c) :
    IsLine index c (Utf8.encode (lowerAt index i)) := by
  cases i with
  | emit | rootdir | workdir =>
    cases hcall
    exact isLine_indexing (by decide) index
  | escaped code =>
    have hopening : Utf8.encode "__print_escaped(".toList = utf8 "__print_escaped" ++ [40] := by
      decide +kernel
    exact isLine_printing (by decide) hopening hcall index
  | raw code =>
    have hopening : Utf8.encode "__print_raw(".toList = utf8 "__print_raw" ++ [40] := by
      decide +kernel
    exact isLine_printing (by decide) hopening hcall index
  | statement code => cases hcall

/-! ### All lines -/

/-- The calls that instructions become, from an index on. -/
inductive Calls : Nat → Program → List GlobalCall → Prop
  | nil {index : Nat} : Calls index [] []
  | cons {index : Nat} {i : Instruction} {rest : Program} {c : GlobalCall} {calls : List GlobalCall}
      (hcall : i.call? index = some c) (hrest : Calls (index + 1) rest calls) :
      Calls index (i :: rest) (c :: calls)

/-- No white space stands in front of a line. -/
lemma isSpace_head?_lowerFrom {program : Program} {calls : List GlobalCall}
    (h : Calls index program calls) :
    ∀ b ∈ (Utf8.encode (lowerFrom index program)).head?, Byte.isSpace b = false := by
  cases h with
  | nil => nofun
  | cons hcall _ =>
    rw [lowerFrom, Utf8.encode_append, List.head?_append, (isLine_lowerAt hcall).head?]
    rintro b ⟨⟩
    rfl

/-- The lines of instructions have the tokens of their calls, and every instruction has a line, at
least. -/
lemma lexes_lowerFrom {program : Program} {calls : List GlobalCall} (h : Calls index program calls)
    {last : Nat} (hlast : index + 1 + program.length = last) :
    Lexes (index + 1) (last < Lexer.maxLines) (Utf8.encode (lowerFrom index program))
      (calls.flatMap GlobalCall.tokens) := by
  induction h with
  | nil =>
    subst hlast
    exact lexes_nil _
  | @cons index i rest c calls hcall hrest ih =>
    rw [List.length_cons] at hlast
    rw [lowerFrom, Utf8.encode_append, List.flatMap_cons]
    -- an index is read as it is written as long as there are not too many lines before it
    by_cases hlines : index + 1 < Lexer.maxLines
    · have hindex : index < 2 ^ 63 := by
        unfold Lexer.maxLines at hlines
        omega
      exact (isLine_lowerAt hcall).lexes hindex <|
        lexes_newline (isSpace_head?_lowerFrom hrest) (ih (by omega))
    · exact lexes_of_maxLines_le (not_lt.1 hlines)

lemma length_tokens_le {program : Program} {calls : List GlobalCall}
    (h : Calls index program calls) :
    (calls.flatMap GlobalCall.tokens).length ≤ (Utf8.encode (lowerFrom index program)).length := by
  induction h with
  | nil => exact le_rfl
  | cons hcall _ ih =>
    rw [lowerFrom, Utf8.encode_append, List.flatMap_cons, List.length_append, List.length_append]
    exact Nat.add_le_add (isLine_lowerAt hcall).length_le ih

/-- **The tokens of a lowered program** are those of its calls, and the script ends only when the
program has fewer instructions than there may be lines. -/
theorem lexes_lower {program : Program} {calls : List GlobalCall} (h : Calls 0 program calls) :
    (Lexemes.ofScript (Utf8.encode program.lower)).Are (1 + program.length < Lexer.maxLines)
      (calls.flatMap GlobalCall.tokens) := by
  have hlines : Lexes 1 _ (Utf8.encode (lowerFrom 0 program)) _ :=
    lexes_lowerFrom h (congrArg (· + program.length) (Nat.zero_add 1))
  exact hlines _ 1 le_rfl (Nat.lt_succ_of_le (length_tokens_le h))

end Program

end BracketTemplate
