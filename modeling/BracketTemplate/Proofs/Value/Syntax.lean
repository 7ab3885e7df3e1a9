import Mathlib
import BracketTemplate.Proofs.Inclusion.Confined
import BracketTemplate.Proofs.Value.Reading

/-!
# The syntax of JSON text

`IsJson` says which texts are JSON, by a grammar that knows nothing of the reader.  Whatever the
reader takes is JSON (`isJson_of_document`), so a text that is not JSON stands for itself.

The reader is followed from its leaves to its loops: digits, numbers, escapes and strings first.
What stands behind an item of a list, up to the closing bracket, is blank or goes on behind a comma
(`GoesOn`), and so is what stands behind an entry of a map.
-/

namespace BracketTemplate

namespace Json

/-! ## The grammar -/

/-- White space. -/
def IsBlank (s : List Char) : Prop := ∀ c ∈ s, c = ' ' ∨ c = '\n' ∨ c = '\t' ∨ c = '\r'

/-- One digit or more. -/
def IsDigits (s : List Char) : Prop := s ≠ [] ∧ ∀ c ∈ s, c.isDigit = true

/-- The digits before the point. Only zero itself starts with a zero. -/
def IsWhole (s : List Char) : Prop := IsDigits s ∧ (s.head? = some '0' → s = ['0'])

/-- A point and the digits behind it, if any. -/
inductive IsFraction : List Char → Prop
  | none : IsFraction []
  | point {digits : List Char} (h : IsDigits digits) : IsFraction ('.' :: digits)

/-- A power of ten, if any. -/
inductive IsPower : List Char → Prop
  | none : IsPower []
  | power {e : Char} {sign digits : List Char} (he : e = 'e' ∨ e = 'E')
      (hsign : sign = [] ∨ sign = ['+'] ∨ sign = ['-']) (h : IsDigits digits) :
      IsPower (e :: sign ++ digits)

/-- A number without its sign. -/
inductive IsUnsigned : List Char → Prop
  | parts {whole fraction power : List Char} (hwhole : IsWhole whole)
      (hfraction : IsFraction fraction) (hpower : IsPower power) :
      IsUnsigned (whole ++ (fraction ++ power))

/-- A hexadecimal digit. -/
def IsHex (c : Char) : Prop := c.isDigit = true ∨ ('a' ≤ c ∧ c ≤ 'f') ∨ ('A' ≤ c ∧ c ≤ 'F')

/-- A character of a string, or an escape. -/
inductive IsCharacter : List Char → Prop
  | plain {c : Char} (hcontrol : 0x20 ≤ c.toNat) (hquote : c ≠ '"') (hbackslash : c ≠ '\\') :
      IsCharacter [c]
  | escape {c : Char} (h : c ∈ ['"', '\\', '/', 'b', 'f', 'n', 'r', 't']) : IsCharacter ['\\', c]
  | code {digits : List Char} (hlength : digits.length = 4) (h : ∀ c ∈ digits, IsHex c) :
      IsCharacter ('\\' :: 'u' :: digits)

/-- What stands between the quotes of a string. -/
inductive IsCharacters : List Char → Prop
  | nil : IsCharacters []
  | cons {c s : List Char} (hc : IsCharacter c) (hs : IsCharacters s) : IsCharacters (c ++ s)

/-- A string in its quotes. -/
def IsString (s : List Char) : Prop := ∃ inner, IsCharacters inner ∧ s = '"' :: (inner ++ ['"'])

/-- One part or more, with commas between them. -/
inductive Listed (IsPart : List Char → Prop) : List Char → Prop
  | one {s : List Char} (h : IsPart s) : Listed IsPart s
  | more {s t : List Char} (h : IsPart s) (ht : Listed IsPart t) : Listed IsPart (s ++ ',' :: t)

mutual

/-- A value. -/
inductive IsValue : List Char → Prop
  | word {s : List Char} (h : s ∈ ["null".toList, "true".toList, "false".toList]) : IsValue s
  | positive {s : List Char} (h : IsUnsigned s) : IsValue s
  | negative {s : List Char} (h : IsUnsigned s) : IsValue ('-' :: s)
  | string {s : List Char} (h : IsString s) : IsValue s
  | emptyList {s : List Char} (h : IsBlank s) : IsValue ('[' :: (s ++ [']']))
  | list {s : List Char} (h : Listed IsElement s) : IsValue ('[' :: (s ++ [']']))
  | emptyMap {s : List Char} (h : IsBlank s) : IsValue ('\x7b' :: (s ++ ['\x7d']))
  | map {s : List Char} (h : Listed IsMember s) : IsValue ('\x7b' :: (s ++ ['\x7d']))

/-- A value with white space around it. -/
inductive IsElement : List Char → Prop
  | padded {before s after : List Char} (hbefore : IsBlank before) (h : IsValue s)
      (hafter : IsBlank after) : IsElement (before ++ (s ++ after))

/-- A name and a value with a colon between them, with white space around all of them. -/
inductive IsMember : List Char → Prop
  | named {before key between s : List Char} (hbefore : IsBlank before) (hkey : IsString key)
      (hbetween : IsBlank between) (h : IsElement s) :
      IsMember (before ++ (key ++ (between ++ ':' :: s)))

end

variable {IsPart : List Char → Prop} {s t : List Char}

lemma IsBlank.nil : IsBlank [] := fun _ h => by cases h

lemma IsBlank.append (hs : IsBlank s) (ht : IsBlank t) : IsBlank (s ++ t) :=
  fun c hc => (List.mem_append.1 hc).elim (hs c) (ht c)

lemma IsCharacters.append (hs : IsCharacters s) (ht : IsCharacters t) : IsCharacters (s ++ t) := by
  induction hs with
  | nil => exact ht
  | cons hc hs ih =>
    rw [List.append_assoc]
    exact ih.cons hc

lemma IsCharacter.characters (h : IsCharacter s) : IsCharacters s := by
  simpa using IsCharacters.nil.cons h

lemma IsElement.append (hs : IsElement s) (ht : IsBlank t) : IsElement (s ++ t) := by
  cases hs with
  | padded hbefore h hafter =>
    rw [List.append_assoc, List.append_assoc]
    exact .padded hbefore h (hafter.append ht)

lemma IsElement.prepend (hs : IsBlank s) (ht : IsElement t) : IsElement (s ++ t) := by
  cases ht with
  | padded hbefore h hafter =>
    rw [← List.append_assoc]
    exact .padded (hs.append hbefore) h hafter

lemma IsMember.append (hs : IsMember s) (ht : IsBlank t) : IsMember (s ++ t) := by
  cases hs with
  | named hbefore hkey hbetween h =>
    simp only [List.append_assoc, List.cons_append]
    exact .named hbefore hkey hbetween (h.append ht)

lemma IsMember.prepend (hs : IsBlank s) (ht : IsMember t) : IsMember (s ++ t) := by
  cases ht with
  | named hbefore hkey hbetween h =>
    rw [← List.append_assoc]
    exact .named (hs.append hbefore) hkey hbetween h

/-- A value starts with a letter of a word, a digit, a minus, a quote or an opening bracket. -/
lemma IsValue.head (h : IsValue s) : ∃ c rest, s = c :: rest ∧
    (c.isDigit = true ∨ c ∈ ['n', 't', 'f', '-', '"', '[', '\x7b']) := by
  cases h with
  | word h =>
    rcases List.mem_cons.1 h with rfl | h
    · exact ⟨'n', _, rfl, by decide⟩
    · rcases List.mem_cons.1 h with rfl | h
      · exact ⟨'t', _, rfl, by decide⟩
      · obtain rfl := List.mem_singleton.1 h
        exact ⟨'f', _, rfl, by decide⟩
  | positive h =>
    cases h with
    | parts hwhole =>
      obtain ⟨d, digits, rfl⟩ := List.exists_cons_of_ne_nil hwhole.1.1
      exact ⟨d, _, rfl, .inl (hwhole.1.2 d List.mem_cons_self)⟩
  | negative h => exact ⟨'-', _, rfl, by decide⟩
  | string h =>
    obtain ⟨inner, -, rfl⟩ := h
    exact ⟨'"', _, rfl, by decide⟩
  | emptyList h | list h => exact ⟨'[', _, rfl, by decide⟩
  | emptyMap h | map h => exact ⟨'\x7b', _, rfl, by decide⟩

/-- So does JSON text, unless it starts with a blank. -/
lemma IsElement.head (h : IsElement s) : ∃ c rest, s = c :: rest ∧
    (c.isDigit = true ∨ c ∈ ['n', 't', 'f', '-', '"', '[', '\x7b', ' ', '\n', '\t', '\r']) := by
  cases h with
  | @padded before s after hbefore h hafter =>
    cases before with
    | nil =>
      obtain ⟨c, rest, rfl, hc⟩ := h.head
      exact ⟨c, _, rfl, hc.imp_right fun hmem => List.mem_append_left [' ', '\n', '\t', '\r'] hmem⟩
    | cons c rest =>
      have hc := hbefore c List.mem_cons_self
      exact ⟨c, _, rfl, .inr (by simp [hc])⟩

/-- What may stand between a part and the closing bracket. -/
inductive GoesOn (IsPart : List Char → Prop) : List Char → Prop
  | close {s : List Char} (h : IsBlank s) : GoesOn IsPart s
  | comma {s t : List Char} (h : IsBlank s) (ht : Listed IsPart t) : GoesOn IsPart (s ++ ',' :: t)

/-- A part and what goes on behind it are parts with commas between them. -/
lemma GoesOn.listed (hpad : ∀ {s t : List Char}, IsPart s → IsBlank t → IsPart (s ++ t))
    (hs : IsPart s) (ht : GoesOn IsPart t) : Listed IsPart (s ++ t) := by
  cases ht with
  | close h => exact .one (hpad hs h)
  | comma h ht =>
    rw [← List.append_assoc]
    exact .more (hpad hs h) ht

end Json

namespace JsonReader

open Json

variable {input out : Input} {v : Value}

/-! ## What the reader takes -/

lemma skip_rest {c : Char} {rest : List Char} (h : input.rest = c :: rest) :
    input.skip.rest = rest := by
  rw [Input.skip, h]

/-- What is skipped is blank. -/
lemma exists_blank (input : Input) :
    ∃ before, IsBlank before ∧ input.rest = before ++ (skipSpaces input).rest := by
  refine ⟨input.rest.takeWhile isSpace, fun c hc => ?_, ?_⟩
  · have hspace := List.mem_takeWhile_imp hc
    simpa [isSpace, or_assoc] using hspace
  · exact (List.prefix_iff_eq_append.1 (List.takeWhile_prefix isSpace)).symm

/-- The rest of a word is taken. -/
lemma rest_word {expected : List Char} (h : word expected input = .ok out) :
    input.rest = expected ++ out.rest := by
  induction expected generalizing input with
  | nil =>
    cases h
    rfl
  | cons c more ih =>
    rw [word] at h
    split at h
    · cases h
    · next d rest hrest =>
      split_ifs at h with hd
      · rw [hrest, hd, ← skip_rest hrest, ih h, List.cons_append]
      · cases h

/-- So is the whole word, behind its first letter. -/
lemma rest_word_cons {c : Char} {rest expected : List Char} (hrest : input.rest = c :: rest)
    (h : word expected input.skip = .ok out) : input.rest = (c :: expected) ++ out.rest := by
  rw [hrest, ← skip_rest hrest, rest_word h, List.cons_append]

/-- The digits at the front are taken. -/
lemma rest_digits (input : Input) :
    input.rest = digitsOf input ++ (input.after (digitsOf input).length).rest :=
  (List.prefix_iff_eq_append.1 (List.takeWhile_prefix Char.isDigit)).symm

lemma isDigits_of_ne_nil (h : digitsOf input ≠ []) : IsDigits (digitsOf input) :=
  ⟨h, fun _ hc => List.mem_takeWhile_imp hc⟩

lemma isDigits_digitsOf {d : Char} {rest : List Char} (h : input.rest = d :: rest)
    (hd : d.isDigit = true) : IsDigits (digitsOf input) := by
  apply isDigits_of_ne_nil
  rw [digitsOf, h, List.takeWhile_cons_of_pos hd]
  exact List.cons_ne_nil _ _

/-! ## Numbers -/

/-- Scaling a number takes nothing. -/
lemma double_rest {negative : Bool} {significand : Nat} {exponent : Int}
    (h : double negative significand exponent input = .ok (v, out)) : out = input := by
  unfold double at h
  split at h
  · cases h
  · cases h
    rfl

lemma exponentPart_rest {negative : Bool} {significand : Nat} {exponent : Int} {e : Char}
    {rest : List Char} (hrest : input.rest = e :: rest) (he : e = 'e' ∨ e = 'E')
    (h : exponentPart negative significand exponent input = .ok (v, out)) :
    ∃ power, IsPower power ∧ input.rest = power ++ out.rest := by
  unfold exponentPart at h
  extract_lets behind at h
  have hskip : behind.rest = rest := skip_rest hrest
  split at h
  next down signed hsigned =>
  obtain ⟨sign, hsign, htaken⟩ : ∃ sign, (sign = [] ∨ sign = ['+'] ∨ sign = ['-']) ∧
      rest = sign ++ signed.rest := by
    split at hsigned
    · next more hmore =>
      cases hsigned
      exact ⟨['+'], .inr (.inl rfl), by rw [skip_rest hmore, ← hskip, hmore, List.singleton_append]⟩
    · next more hmore =>
      cases hsigned
      exact ⟨['-'], .inr (.inr rfl), by rw [skip_rest hmore, ← hskip, hmore, List.singleton_append]⟩
    · cases hsigned
      exact ⟨[], .inl rfl, hskip.symm⟩
  obtain ⟨digits, hdigits, hout⟩ :
      ∃ digits, IsDigits digits ∧ signed.rest = digits ++ out.rest := by
    split at h
    · cases h
    · next d more hmore =>
      split at h
      · cases h
      · next hd =>
        have hdigits := isDigits_digitsOf hmore (by simpa using hd)
        refine ⟨digitsOf signed, hdigits, ?_⟩
        dsimp only at h
        split at h
        · rw [double_rest h, ← rest_digits]
        · split at h
          · cases h
          · cases h
            exact rest_digits signed
  refine ⟨e :: sign ++ digits, .power he hsign hdigits, ?_⟩
  rw [hrest, htaken, hout]
  simp

lemma doubleEnd_rest {negative : Bool} {significand : Nat} {exponent : Int}
    (h : doubleEnd negative significand exponent input = .ok (v, out)) :
    ∃ power, IsPower power ∧ input.rest = power ++ out.rest := by
  unfold doubleEnd at h
  split at h
  · next hrest => exact exponentPart_rest hrest (.inl rfl) h
  · next hrest => exact exponentPart_rest hrest (.inr rfl) h
  · rw [double_rest h]
    exact ⟨[], .none, rfl⟩

lemma fractionPart_rest {negative : Bool} {significand : Nat} {exponent : Int} {rest : List Char}
    (hrest : input.rest = '.' :: rest)
    (h : fractionPart negative significand exponent input = .ok (v, out)) :
    ∃ fraction power, IsFraction fraction ∧ IsPower power ∧
      input.rest = fraction ++ (power ++ out.rest) := by
  unfold fractionPart at h
  extract_lets behind digits at h
  have hskip : behind.rest = rest := skip_rest hrest
  split at h
  · split at h <;> cases h
  · next hne =>
    obtain ⟨power, hpower, hout⟩ := doubleEnd_rest h
    have hdigits : IsDigits digits := isDigits_of_ne_nil (by simpa using hne)
    refine ⟨'.' :: digits, power, .point hdigits, hpower, ?_⟩
    rw [hrest, ← hskip, rest_digits behind, hout, List.cons_append]

/-- **What is taken as a number is a number.** -/
lemma number_rest {negative : Bool} (h : number negative input = .ok (v, out)) :
    ∃ s, IsUnsigned s ∧ input.rest = s ++ out.rest := by
  unfold number at h
  split at h
  · cases h
  · next d rest hrest =>
    split at h
    · cases h
    · next hd =>
      have hdigits : IsDigits (digitsOf input) := isDigits_digitsOf hrest (by simpa using hd)
      extract_lets digits behind at h
      split at h
      · cases h
      · next hzero =>
        have hwhole : IsWhole digits := by
          refine ⟨hdigits, fun hhead => ?_⟩
          have hfront : digits = d :: rest.takeWhile Char.isDigit := by
            show input.rest.takeWhile Char.isDigit = _
            rw [hrest, List.takeWhile_cons_of_pos (by simpa using hd)]
          rw [hfront] at hhead hzero ⊢
          obtain rfl : d = '0' := Option.some_inj.1 hhead
          simpa using hzero
        obtain ⟨fraction, power, hfraction, hpower, hout⟩ : ∃ fraction power, IsFraction fraction ∧
            IsPower power ∧ behind.rest = fraction ++ (power ++ out.rest) := by
          have hwholeOnly : out = behind → ∃ fraction power, IsFraction fraction ∧
              IsPower power ∧ behind.rest = fraction ++ (power ++ out.rest) := by
            rintro rfl
            exact ⟨[], [], .none, .none, rfl⟩
          split at h
          extract_lets dropped at h
          split at h
          · next hpoint => exact fractionPart_rest hpoint h
          · next hpower =>
            obtain ⟨power, hpower, hout⟩ := exponentPart_rest hpower (.inl rfl) h
            exact ⟨[], power, .none, hpower, hout⟩
          · next hpower =>
            obtain ⟨power, hpower, hout⟩ := exponentPart_rest hpower (.inr rfl) h
            exact ⟨[], power, .none, hpower, hout⟩
          · apply hwholeOnly
            split_ifs at h
            · exact double_rest h
            all_goals exact (Prod.mk.inj (Except.ok.inj h)).2.symm
        refine ⟨_, .parts hwhole hfraction hpower, ?_⟩
        rw [rest_digits input, List.append_assoc, List.append_assoc, ← hout]

/-! ## Strings -/

lemma isHex_of_hexDigit? {c : Char} {n : Nat} (h : hexDigit? c = some n) : IsHex c := by
  unfold hexDigit? at h
  split_ifs at h with hdigit hlower hupper
  · exact .inl hdigit
  · exact .inr (.inl (by simpa using hlower))
  · exact .inr (.inr (by simpa using hupper))

lemma isHex_of_mapM {s : List Char} {ns : List Nat} (h : s.mapM hexDigit? = some ns) :
    s.length = ns.length ∧ ∀ c ∈ s, IsHex c := by
  induction s generalizing ns with
  | nil =>
    cases h
    exact ⟨rfl, fun _ hc => by cases hc⟩
  | cons c s ih =>
    simp only [List.mapM_cons, Option.bind_eq_bind, Option.bind_eq_some_iff, Option.pure_def,
      Option.some_inj] at h
    obtain ⟨n, hn, ns, hns, rfl⟩ := h
    obtain ⟨hlength, hhex⟩ := ih hns
    exact ⟨congrArg (· + 1) hlength, List.forall_mem_cons.2 ⟨isHex_of_hexDigit? hn, hhex⟩⟩

/-- Four hexadecimal digits are taken. -/
lemma hexEscape_rest {n : Nat} (h : hexEscape input = .ok (n, out)) :
    ∃ digits, digits.length = 4 ∧ (∀ c ∈ digits, IsHex c) ∧ input.rest = digits ++ out.rest := by
  unfold hexEscape at h
  split at h
  · cases h
  · split at h
    · next a b c d hdigits =>
      obtain ⟨hlength, hhex⟩ := isHex_of_mapM hdigits
      cases h
      exact ⟨input.rest.take 4, hlength, hhex, (List.take_append_drop 4 _).symm⟩
    · cases h

/-- An escape behind its backslash is one character of a string, or two behind the letter `u`. -/
lemma unicodeEscape_rest {c : Char} (h : unicodeEscape input = .ok (c, out)) :
    ∃ s, IsCharacters ('\\' :: 'u' :: s) ∧ input.rest = s ++ out.rest := by
  unfold unicodeEscape at h
  obtain ⟨⟨high, between⟩, hhigh, h⟩ := Source.bind_eq_ok.1 h
  obtain ⟨digits, hlength, hhex, hrest⟩ := hexEscape_rest hhigh
  have hfirst : IsCharacter ('\\' :: 'u' :: digits) := .code hlength hhex
  dsimp only at h
  split_ifs at h with hlone hbasic
  · cases h
  · cases h
    exact ⟨digits, hfirst.characters, hrest⟩
  · split at h
    · cases h
    · next more hbackslash =>
      split at h
      · cases h
      · next more' hu =>
        obtain ⟨⟨low, after⟩, hlow, h⟩ := Source.bind_eq_ok.1 h
        obtain ⟨digits', hlength', hhex', hrest'⟩ := hexEscape_rest hlow
        dsimp only at h
        split_ifs at h
        · cases h
        · obtain rfl : after = out := (Prod.mk.inj (Except.ok.inj h)).2
          have hsecond : IsCharacter ('\\' :: 'u' :: digits') := .code hlength' hhex'
          refine ⟨digits ++ '\\' :: 'u' :: digits', ?_, ?_⟩
          · rw [← List.cons_append, ← List.cons_append]
            exact hsecond.characters.cons hfirst
          · rw [skip_rest hu] at hrest'
            rw [skip_rest hbackslash] at hu
            rw [hrest, hbackslash, hu, hrest', List.append_assoc, List.cons_append,
              List.cons_append]
      · cases h
    · cases h

lemma escape_rest {c : Char} (h : escape input = .ok (c, out)) :
    ∃ s, IsCharacters ('\\' :: s) ∧ input.rest = s ++ out.rest := by
  have hletter : ∀ {d : Char} {rest : List Char}, input.rest = d :: rest →
      d ∈ ['"', '\\', '/', 'b', 'f', 'n', 'r', 't'] → out = input.skip →
      ∃ s, IsCharacters ('\\' :: s) ∧ input.rest = s ++ out.rest := by
    rintro d rest hrest hd rfl
    refine ⟨[d], (IsCharacter.escape hd).characters, ?_⟩
    rw [skip_rest hrest, hrest, List.singleton_append]
  unfold escape at h
  split at h
  · cases h
  all_goals try next hrest =>
    cases h
    exact hletter hrest (by simp) rfl
  · next rest hrest =>
    obtain ⟨s, hs, hout⟩ := unicodeEscape_rest h
    rw [skip_rest hrest] at hout
    exact ⟨'u' :: s, hs, by rw [hrest, hout, List.cons_append]⟩
  · cases h

/-- **What is taken as a string is a string**, behind its opening quote. -/
lemma text_rest {fuel : Nat} {done : List Char} {s : String}
    (h : text fuel done input = .ok (s, out)) :
    ∃ inner, IsCharacters inner ∧ input.rest = inner ++ '"' :: out.rest := by
  induction fuel generalizing done input with
  | zero => cases h
  | succ fuel ih =>
    rw [text] at h
    split at h
    · cases h
    · next rest hrest =>
      cases h
      exact ⟨[], .nil, by rw [skip_rest hrest, hrest, List.nil_append]⟩
    · next rest hrest =>
      obtain ⟨⟨c, between⟩, hescape, h⟩ := Source.bind_eq_ok.1 h
      obtain ⟨s, hs, hbetween⟩ := escape_rest hescape
      obtain ⟨inner, hinner, hout⟩ := ih h
      rw [skip_rest hrest] at hbetween
      refine ⟨'\\' :: s ++ inner, hs.append hinner, ?_⟩
      rw [hrest, hbetween, hout, List.cons_append, List.cons_append, List.append_assoc]
    · next c rest hquote hbackslash hrest =>
      split at h
      · cases h
      · next hcontrol =>
        obtain ⟨inner, hinner, hout⟩ := ih h
        rw [skip_rest hrest] at hout
        have hc : IsCharacter [c] := by
          refine .plain (Nat.not_lt.1 hcontrol) ?_ ?_
          · rintro rfl
            exact hquote rfl
          · rintro rfl
            exact hbackslash rfl
        refine ⟨c :: inner, hinner.cons hc, ?_⟩
        rw [hrest, hout, List.cons_append]

/-! ## Values, lists and maps -/

/-- What may stand between an opening bracket and its closing one, or behind a part of the list up
to there. -/
def Inside (IsPart : List Char → Prop) (first : Bool) (s : List Char) : Prop :=
  if first then IsBlank s ∨ Listed IsPart s else GoesOn IsPart s

lemma Inside.of_isBlank {IsPart : List Char → Prop} {s : List Char} (h : IsBlank s) (first : Bool) :
    Inside IsPart first s := by
  cases first with
  | true => exact .inl h
  | false => exact .close h

/-- What the reader takes in so many steps is what it is meant to be. -/
structure Takes (fuel : Nat) : Prop where
  value : ∀ {depth input v out}, value fuel depth input = .ok (v, out) →
    ∃ s, IsElement s ∧ input.rest = s ++ out.rest
  items : ∀ {depth first done input vs out}, items fuel depth first done input = .ok (vs, out) →
    ∃ s, Inside IsElement first s ∧ input.rest = s ++ ']' :: out.rest
  entries : ∀ {depth first done input es out},
    entries fuel depth first done input = .ok (es, out) →
      ∃ s, Inside IsMember first s ∧ input.rest = s ++ '\x7d' :: out.rest
  entry : ∀ {depth input e out rest}, entry fuel depth input = .ok (e, out) →
    input.rest = '"' :: rest → ∃ s, IsMember s ∧ input.rest = s ++ out.rest

lemma takes_zero : Takes 0 where
  value h := by
    rw [JsonReader.value] at h
    cases h
  items h := by
    rw [JsonReader.items] at h
    cases h
  entries h := by
    rw [JsonReader.entries] at h
    cases h
  entry h := by
    rw [JsonReader.entry] at h
    cases h

variable {fuel depth : Nat}

lemma Takes.value_succ (ih : Takes fuel)
    (h : JsonReader.value (fuel + 1) depth input = .ok (v, out)) :
    ∃ s, IsElement s ∧ input.rest = s ++ out.rest := by
  obtain ⟨before, hbefore, hskip⟩ := exists_blank input
  obtain ⟨s, hs, hout⟩ : ∃ s, IsValue s ∧ (skipSpaces input).rest = s ++ out.rest := by
    rw [JsonReader.value] at h
    split at h
    · cases h
    · next rest hrest =>
      obtain ⟨after, hword, h⟩ := Source.bind_eq_ok.1 h
      cases h
      exact ⟨"null".toList, .word (by simp), rest_word_cons hrest hword⟩
    · next rest hrest =>
      obtain ⟨after, hword, h⟩ := Source.bind_eq_ok.1 h
      cases h
      exact ⟨"true".toList, .word (by simp), rest_word_cons hrest hword⟩
    · next rest hrest =>
      obtain ⟨after, hword, h⟩ := Source.bind_eq_ok.1 h
      cases h
      exact ⟨"false".toList, .word (by simp), rest_word_cons hrest hword⟩
    · next rest hrest =>
      obtain ⟨s, hs, hout⟩ := number_rest h
      exact ⟨'-' :: s, .negative hs, by rw [hrest, ← skip_rest hrest, hout, List.cons_append]⟩
    · next rest hrest =>
      obtain ⟨⟨s, after⟩, htext, h⟩ := Source.bind_eq_ok.1 h
      cases h
      obtain ⟨inner, hinner, hout⟩ := text_rest htext
      refine ⟨'"' :: (inner ++ ['"']), .string ⟨inner, hinner, rfl⟩, ?_⟩
      rw [hrest, ← skip_rest hrest, hout]
      simp
    · next rest hrest =>
      split at h
      · cases h
      · obtain ⟨⟨vs, after⟩, hitems, h⟩ := Source.bind_eq_ok.1 h
        cases h
        obtain ⟨s, hs, hout⟩ := ih.items hitems
        refine ⟨'[' :: (s ++ [']']), hs.elim .emptyList .list, ?_⟩
        rw [hrest, ← skip_rest hrest, hout]
        simp
    · next rest hrest =>
      split at h
      · cases h
      · obtain ⟨⟨es, after⟩, hentries, h⟩ := Source.bind_eq_ok.1 h
        cases h
        obtain ⟨s, hs, hout⟩ := ih.entries hentries
        refine ⟨'\x7b' :: (s ++ ['\x7d']), hs.elim .emptyMap .map, ?_⟩
        rw [hrest, ← skip_rest hrest, hout]
        simp
    · split at h
      · obtain ⟨s, hs, hout⟩ := number_rest h
        exact ⟨s, .positive hs, hout⟩
      · cases h
  refine ⟨before ++ (s ++ []), .padded hbefore hs .nil, ?_⟩
  rw [hskip, hout, List.append_nil, List.append_assoc]

lemma Takes.items_succ (ih : Takes fuel) {first : Bool} {done vs : List Value}
    (h : JsonReader.items (fuel + 1) depth first done input = .ok (vs, out)) :
    ∃ s, Inside IsElement first s ∧ input.rest = s ++ ']' :: out.rest := by
  obtain ⟨before, hbefore, hskip⟩ := exists_blank input
  rw [JsonReader.items] at h
  split at h
  · cases h
  · next rest hrest =>
    cases h
    exact ⟨before, .of_isBlank hbefore first, by rw [hskip, hrest, skip_rest hrest]⟩
  · next c rest _ hrest =>
    split at h
    · next hfirst =>
      obtain ⟨⟨v, after⟩, hvalue, h⟩ := Source.bind_eq_ok.1 h
      obtain ⟨s, hs, hafter⟩ := ih.value hvalue
      obtain ⟨t, ht, hout⟩ := ih.items h
      refine ⟨before ++ s ++ t, ?_, ?_⟩
      · rw [hfirst]
        exact .inr (GoesOn.listed IsElement.append (hs.prepend hbefore) ht)
      · rw [hskip, hafter, hout]
        simp
    · next hfirst =>
      split at h
      · next hcomma =>
        obtain ⟨between, hbetween, hskip'⟩ := exists_blank (skipSpaces input).skip
        rw [skip_rest hrest] at hskip'
        dsimp only at h
        split at h
        · cases h
        · cases h
        · obtain ⟨⟨v, after⟩, hvalue, h⟩ := Source.bind_eq_ok.1 h
          obtain ⟨s, hs, hafter⟩ := ih.value hvalue
          obtain ⟨t, ht, hout⟩ := ih.items h
          refine ⟨before ++ ',' :: (between ++ s ++ t), ?_, ?_⟩
          · rw [Bool.eq_false_of_not_eq_true hfirst]
            exact .comma hbefore (GoesOn.listed IsElement.append (hs.prepend hbetween) ht)
          · rw [hskip, hrest, hcomma, hskip', hafter, hout]
            simp
      · cases h

lemma Takes.entries_succ (ih : Takes fuel) {first : Bool} {done es : List (String × Value)}
    (h : JsonReader.entries (fuel + 1) depth first done input = .ok (es, out)) :
    ∃ s, Inside IsMember first s ∧ input.rest = s ++ '\x7d' :: out.rest := by
  obtain ⟨before, hbefore, hskip⟩ := exists_blank input
  rw [JsonReader.entries] at h
  split at h
  · cases h
  · next rest hrest =>
    cases h
    exact ⟨before, .of_isBlank hbefore first, by rw [hskip, hrest, skip_rest hrest]⟩
  · next c rest _ hrest =>
    split at h
    · next hfirst =>
      split at h
      · next hquote =>
        obtain ⟨⟨e, after⟩, hentry, h⟩ := Source.bind_eq_ok.1 h
        obtain ⟨s, hs, hafter⟩ := ih.entry hentry (hquote ▸ hrest)
        obtain ⟨t, ht, hout⟩ := ih.entries h
        refine ⟨before ++ s ++ t, ?_, ?_⟩
        · rw [hfirst]
          exact .inr (GoesOn.listed IsMember.append (hs.prepend hbefore) ht)
        · rw [hskip, hafter, hout]
          simp
      · cases h
    · next hfirst =>
      split at h
      · next hcomma =>
        obtain ⟨between, hbetween, hskip'⟩ := exists_blank (skipSpaces input).skip
        rw [skip_rest hrest] at hskip'
        dsimp only at h
        split at h
        · next hquote =>
          obtain ⟨⟨e, after⟩, hentry, h⟩ := Source.bind_eq_ok.1 h
          obtain ⟨s, hs, hafter⟩ := ih.entry hentry hquote
          obtain ⟨t, ht, hout⟩ := ih.entries h
          refine ⟨before ++ ',' :: (between ++ s ++ t), ?_, ?_⟩
          · rw [Bool.eq_false_of_not_eq_true hfirst]
            exact .comma hbefore (GoesOn.listed IsMember.append (hs.prepend hbetween) ht)
          · rw [hskip, hrest, hcomma, hskip', hafter, hout]
            simp
        all_goals cases h
      · cases h

lemma Takes.entry_succ (ih : Takes fuel) {e : String × Value} {rest : List Char}
    (h : JsonReader.entry (fuel + 1) depth input = .ok (e, out))
    (hrest : input.rest = '"' :: rest) :
    ∃ s, IsMember s ∧ input.rest = s ++ out.rest := by
  rw [JsonReader.entry] at h
  obtain ⟨⟨key, behind⟩, hkey, h⟩ := Source.bind_eq_ok.1 h
  obtain ⟨inner, hinner, hbehind⟩ := text_rest hkey
  rw [skip_rest hrest] at hbehind
  obtain ⟨between, hbetween, hskip⟩ := exists_blank behind
  dsimp only at h
  split at h
  · next more hcolon =>
    obtain ⟨⟨v, after⟩, hvalue, h⟩ := Source.bind_eq_ok.1 h
    cases h
    obtain ⟨s, hs, hout⟩ := ih.value hvalue
    rw [skip_rest hcolon] at hout
    refine ⟨[] ++ ('"' :: (inner ++ ['"']) ++ (between ++ ':' :: s)),
      .named .nil ⟨inner, hinner, rfl⟩ hbetween hs, ?_⟩
    rw [hrest, hbehind, hskip, hcolon, hout]
    simp
  · cases h
  · cases h

/-- **Whatever the reader takes is what it is meant to be**, with however many steps. -/
theorem takes (fuel : Nat) : Takes fuel := by
  induction fuel with
  | zero => exact takes_zero
  | succ fuel ih => exact ⟨ih.value_succ, ih.items_succ, ih.entries_succ, ih.entry_succ⟩

end JsonReader

/-- The text is JSON: one value with white space around it. -/
def IsJson (text : String) : Prop := Json.IsElement text.toList

/-- **What is read as a document is JSON.** -/
theorem isJson_of_document {text : String} {v : Value}
    (h : JsonReader.document text.toList = .ok v) : IsJson text := by
  obtain ⟨⟨v, behind⟩, hvalue, h⟩ := Source.bind_eq_ok.1 h
  obtain ⟨s, hs, hbehind⟩ := (JsonReader.takes _).value hvalue
  obtain ⟨after, hafter, hskip⟩ := JsonReader.exists_blank behind
  dsimp only at h
  split at h
  · next hempty =>
    rw [hskip, List.isEmpty_iff.1 hempty, List.append_nil] at hbehind
    have htext : text.toList = s ++ after := hbehind
    rw [IsJson, htext]
    exact hs.append hafter
  · cases h

namespace Value

/-- **A value without doubles is read back from its JSON text, and what is not JSON stands for
itself.** The value that is read has the same kind at every place, and its items and entries are in
the same order. -/
theorem parseLenient_reads :
    (∀ v : Value, v.Exact → v.depth ≤ 127 → parseLenient v.toJson = v) ∧
      ∀ text : String, ¬IsJson text → parseLenient text = .str text := by
  constructor
  · intro v hexact hdepth
    unfold parseLenient
    rw [toJson, String.toList_ofList, hexact.document_jsonChars hdepth]
  · intro text hnot
    unfold parseLenient
    split
    · next v hdocument => exact absurd (isJson_of_document hdocument) hnot
    · rfl

/-- Both ends of the integers, texts that look like other values, and empty lists and maps come back
as they are. A text that starts with a capital letter is not JSON. -/
theorem parseLenient_reads_sample :
    let v : Value := .map [("least", .int Int64.minValue), ("greatest", .int Int64.maxValue),
      ("looks", .list [.str "null", .str "[1]", .str "-0", .str "\"\\\u0000"]),
      ("empty", .list [.list [], .map [], .str "", .nil, .bool false])]
    parseLenient v.toJson = v ∧ parseLenient "Flor<i>an" = .str "Flor<i>an" := by
  constructor
  · refine parseLenient_reads.1 _ (.map (by decide) ?_) (by decide)
    intro p hp
    fin_cases hp
    · exact .int _
    · exact .int _
    · refine .list fun w hw => ?_
      fin_cases hw <;> exact .str _
    · refine .list fun w hw => ?_
      fin_cases hw
      · exact .list fun _ h => by cases h
      · exact .map List.nodup_nil fun _ h => by cases h
      · exact .str _
      · exact .nil
      · exact .bool _
  · refine parseLenient_reads.2 _ fun hjson => ?_
    obtain ⟨c, rest, htext, hc⟩ := hjson.head
    have hfirst : 'F' = c := (List.cons.inj htext).1
    subst hfirst
    revert hc
    decide

end Value

end BracketTemplate
