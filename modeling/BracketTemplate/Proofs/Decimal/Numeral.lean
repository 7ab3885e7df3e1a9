import Mathlib
import BracketTemplate.Proofs.Decimal.Interval
import BracketTemplate.Value.Json

/-!
# How decimals are written

Integers and doubles are written with digits, digits behind a point and a power of ten.  A `Numeral`
has these three parts, and they can be read off its text whatever comes behind it
(`Numeral.text_inj`).  Of the layouts that a double may be written in, each is the text of a numeral
with the value of the decimal that it writes (`exists_numeral`), so the text determines the value.
-/

namespace BracketTemplate

namespace Decimal

/-! ## Digits -/

/-- The number that digits stand for. -/
def ofDigits (digits : List Char) : Nat := Nat.ofDigitChars 10 digits 0

@[simp] lemma ofDigits_digitsOf (n : Nat) : ofDigits (digitsOf n) = n :=
  Nat.ofDigitChars_ten_toDigits

lemma ofDigits_append (front back : List Char) :
    ofDigits (front ++ back) = ofDigits front * 10 ^ back.length + ofDigits back := by
  rw [ofDigits, Nat.ofDigitChars_append, Nat.ofDigitChars_eq_ofDigitChars_zero, mul_comm]
  rfl

@[simp] lemma ofDigits_zeros (n : Nat) : ofDigits (zeros n) = 0 := by
  rw [ofDigits, zeros, Nat.ofDigitChars_replicate_zero, mul_zero]

lemma digitsOf_injective : Function.Injective digitsOf :=
  Function.LeftInverse.injective ofDigits_digitsOf

lemma digitsOf_ne_nil (n : Nat) : digitsOf n ≠ [] := Nat.toDigits_ne_nil

lemma isDigit_of_mem_digitsOf {n : Nat} {c : Char} (h : c ∈ digitsOf n) : c.isDigit = true :=
  Nat.isDigit_of_mem_toDigits (by norm_num) (by norm_num) h

lemma isDigit_of_mem_zeros {n : Nat} {c : Char} (h : c ∈ zeros n) : c.isDigit = true := by
  rw [List.eq_of_mem_replicate h]
  rfl

/-- What is taken from the front as long as a test holds does not depend on what comes behind. -/
lemma append_inj_of_all {p : Char → Bool} {front front' back back' : List Char}
    (h : front ++ back = front' ++ back') (hfront : ∀ c ∈ front, p c) (hfront' : ∀ c ∈ front', p c)
    (hback : ∀ c ∈ back.head?, ¬ p c) (hback' : ∀ c ∈ back'.head?, ¬ p c) :
    front = front' ∧ back = back' := by
  have htake : ∀ {front back : List Char}, (∀ c ∈ front, p c) → (∀ c ∈ back.head?, ¬ p c) →
      (front ++ back).takeWhile p = front := by
    intro front back hall hstop
    rw [List.takeWhile_append_of_pos hall]
    cases back with
    | nil => simp
    | cons c back => simp [hstop c rfl]
  have hsame : front = front' := by
    rw [← htake hfront hback, ← htake hfront' hback', h]
  subst hsame
  exact ⟨rfl, List.append_cancel_left h⟩

end Decimal

open Decimal

/-! ## Numerals -/

/-- A decimal as it is written: digits, digits behind a point, and a power of ten. -/
@[ext]
structure Numeral where
  whole : List Char
  fraction : List Char
  power : Option Int
  whole_digits : ∀ c ∈ whole, c.isDigit
  fraction_digits : ∀ c ∈ fraction, c.isDigit

namespace Numeral

/-- Digits behind a point, if there are any. -/
def fractionText (digits : List Char) : List Char := if digits = [] then [] else '.' :: digits

/-- A power of ten, if there is one. -/
def powerText : Option Int → List Char
  | none => []
  | some power => 'e' :: (if power < 0 then '-' else '+') :: digitsOf power.natAbs

/-- The text of a numeral. -/
def text (n : Numeral) : List Char := n.whole ++ (fractionText n.fraction ++ powerText n.power)

/-- The number that a numeral stands for. -/
def value (n : Numeral) : ℚ :=
  ofDigits (n.whole ++ n.fraction) * 10 ^ (n.power.getD 0 - n.fraction.length)

/-- What may come behind a numeral is no part of one. -/
def Stops (rest : List Char) : Prop := ∀ c ∈ rest.head?, ¬ c.isDigit ∧ c ≠ '.' ∧ c ≠ 'e'

lemma powerText_inj {power power' : Option Int} {rest rest' : List Char}
    (h : powerText power ++ rest = powerText power' ++ rest') (hrest : Stops rest)
    (hrest' : Stops rest') : power = power' ∧ rest = rest' := by
  cases power with
  | none =>
    cases power' with
    | none => exact ⟨rfl, h⟩
    | some power' =>
      have hmem : 'e' ∈ rest.head? := by
        rw [show rest = _ from h]
        rfl
      exact absurd rfl (hrest _ hmem).2.2
  | some power =>
    cases power' with
    | none =>
      have hmem : 'e' ∈ rest'.head? := by
        rw [← show _ = rest' from h]
        rfl
      exact absurd rfl (hrest' _ hmem).2.2
    | some power' =>
      simp only [powerText, List.cons_append, List.cons.injEq, true_and] at h
      obtain ⟨hsign, h⟩ := h
      obtain ⟨hdigits, hrest⟩ := append_inj_of_all (p := Char.isDigit) h
        (fun _ => isDigit_of_mem_digitsOf) (fun _ => isDigit_of_mem_digitsOf)
        (fun c hc => (hrest c hc).1) (fun c hc => (hrest' c hc).1)
      have habs : power.natAbs = power'.natAbs := digitsOf_injective hdigits
      have hneg : power < 0 ↔ power' < 0 := by
        constructor <;> intro hlt <;> by_contra hge <;> simp [hlt, hge] at hsign
      exact ⟨congrArg some (by omega), hrest⟩

lemma not_isDigit_head_powerText {power : Option Int} {rest : List Char} (h : Stops rest) :
    ∀ c ∈ (powerText power ++ rest).head?, ¬ c.isDigit ∧ c ≠ '.' := by
  intro c hc
  cases power with
  | none => exact ⟨(h c hc).1, (h c hc).2.1⟩
  | some power =>
    obtain rfl : 'e' = c := by simpa [powerText] using hc
    decide

lemma fractionText_inj {digits digits' rest rest' : List Char}
    (h : fractionText digits ++ rest = fractionText digits' ++ rest')
    (hdigits : ∀ c ∈ digits, c.isDigit) (hdigits' : ∀ c ∈ digits', c.isDigit)
    (hrest : ∀ c ∈ rest.head?, ¬ c.isDigit ∧ c ≠ '.')
    (hrest' : ∀ c ∈ rest'.head?, ¬ c.isDigit ∧ c ≠ '.') : digits = digits' ∧ rest = rest' := by
  unfold fractionText at h
  split at h <;> rename_i hnil <;> split at h <;> rename_i hnil'
  · exact ⟨hnil.trans hnil'.symm, h⟩
  · have hmem : '.' ∈ rest.head? := by
      rw [show rest = _ from h]
      rfl
    exact absurd rfl (hrest _ hmem).2
  · have hmem : '.' ∈ rest'.head? := by
      rw [← show _ = rest' from h]
      rfl
    exact absurd rfl (hrest' _ hmem).2
  · exact append_inj_of_all (p := Char.isDigit) (List.cons.inj h).2 hdigits hdigits'
      (fun c hc => (hrest c hc).1) (fun c hc => (hrest' c hc).1)

/-- **The text of a numeral determines it**, whatever comes behind. -/
theorem text_inj {n m : Numeral} {rest rest' : List Char} (h : n.text ++ rest = m.text ++ rest')
    (hrest : Stops rest) (hrest' : Stops rest') : n = m ∧ rest = rest' := by
  have hend := @not_isDigit_head_powerText
  have hhead : ∀ {digits : List Char} {power : Option Int} {rest : List Char}, Stops rest →
      ∀ c ∈ (fractionText digits ++ (powerText power ++ rest)).head?, ¬ c.isDigit := by
    intro digits power rest hstops c hc
    unfold fractionText at hc
    split at hc
    · exact (hend hstops c hc).1
    · obtain rfl : '.' = c := by simpa using hc
      decide
  simp only [text, List.append_assoc] at h
  obtain ⟨hwhole, h⟩ := append_inj_of_all (p := Char.isDigit) h n.whole_digits m.whole_digits
    (hhead hrest) (hhead hrest')
  obtain ⟨hfraction, h⟩ := fractionText_inj h n.fraction_digits m.fraction_digits (hend hrest)
    (hend hrest')
  obtain ⟨hpower, h⟩ := powerText_inj h hrest hrest'
  exact ⟨Numeral.ext hwhole hfraction hpower, h⟩

end Numeral

/-! ## Integers and doubles -/

/-- The numeral of a natural number. -/
def Numeral.ofNat (n : Nat) : Numeral :=
  ⟨digitsOf n, [], none, fun _ => isDigit_of_mem_digitsOf, by simp⟩

@[simp] lemma Numeral.text_ofNat (n : Nat) : (Numeral.ofNat n).text = digitsOf n := by
  simp [Numeral.text, Numeral.ofNat, Numeral.fractionText, Numeral.powerText]

/-- The digits of a decimal without its exponent, split anywhere. -/
lemma Numeral.value_split {n : Numeral} (digits : Nat)
    (h : n.whole ++ n.fraction = digitsOf digits) :
    n.value = digits * 10 ^ (n.power.getD 0 - n.fraction.length) := by
  rw [Numeral.value, h, ofDigits_digitsOf]

section

variable {s : Scientific} {k : Nat}

/-- An integer, with a point and a zero behind it. -/
lemma exists_numeral_integer (hk : s.exponent = k) :
    ∃ n : Numeral, digitsOf s.digits ++ zeros k ++ ['.', '0'] = n.text ∧
      n.value = s.value ∧ n.whole ≠ [] ∧ n.fraction ≠ [] := by
  have hwhole : ∀ c ∈ digitsOf s.digits ++ zeros k, c.isDigit := by
    intro c hc
    rcases List.mem_append.1 hc with hc | hc
    · exact isDigit_of_mem_digitsOf hc
    · exact isDigit_of_mem_zeros hc
  refine ⟨⟨digitsOf s.digits ++ zeros k, zeros 1, none, hwhole, fun _ => isDigit_of_mem_zeros⟩, rfl,
    ?_, by simp [digitsOf_ne_nil], by simp [zeros]⟩
  have hone : (zeros 1).length = 1 := rfl
  have hzeros : (zeros k).length = k := List.length_replicate
  simp only [Numeral.value, Scientific.value, hk, ofDigits_append, ofDigits_digitsOf,
    ofDigits_zeros, hone, hzeros, Option.getD_none]
  push_cast
  rw [zpow_natCast]
  norm_num
  ring

/-- Digits on both sides of the point. -/
lemma exists_numeral_point (hk : s.exponent = -k) (hpositive : 0 < k)
    (hlt : k < (digitsOf s.digits).length) :
    ∃ n : Numeral, (digitsOf s.digits).take ((digitsOf s.digits).length - k) ++
        '.' :: (digitsOf s.digits).drop ((digitsOf s.digits).length - k) = n.text ∧
      n.value = s.value ∧ n.whole ≠ [] ∧ n.fraction ≠ [] := by
  refine ⟨⟨(digitsOf s.digits).take ((digitsOf s.digits).length - k),
    (digitsOf s.digits).drop ((digitsOf s.digits).length - k), none,
    fun c hc => isDigit_of_mem_digitsOf (List.mem_of_mem_take hc),
    fun c hc => isDigit_of_mem_digitsOf (List.mem_of_mem_drop hc)⟩, ?_, ?_, ?_, ?_⟩
  · simp [Numeral.text, Numeral.fractionText, Numeral.powerText]
    omega
  · rw [Numeral.value_split _ (List.take_append_drop _ _), Scientific.value, hk]
    simp only [List.length_drop, Option.getD_none, zero_sub]
    congr 3
    omega
  · simp [List.take_eq_nil_iff, digitsOf_ne_nil]
    omega
  · simp [List.drop_eq_nil_iff]
    omega

/-- Zeros between the point and the digits. -/
lemma exists_numeral_zeros (hk : s.exponent = -k) (hle : (digitsOf s.digits).length ≤ k) :
    ∃ n : Numeral,
      '0' :: '.' :: zeros (k - (digitsOf s.digits).length) ++ digitsOf s.digits = n.text ∧
      n.value = s.value ∧ n.whole ≠ [] ∧ n.fraction ≠ [] := by
  have hfraction : ∀ c ∈ zeros (k - (digitsOf s.digits).length) ++ digitsOf s.digits,
      c.isDigit := by
    intro c hc
    rcases List.mem_append.1 hc with hc | hc
    · exact isDigit_of_mem_zeros hc
    · exact isDigit_of_mem_digitsOf hc
  refine ⟨⟨zeros 1, zeros (k - (digitsOf s.digits).length) ++ digitsOf s.digits, none,
    fun _ => isDigit_of_mem_zeros, hfraction⟩, ?_, ?_, by simp [zeros], by simp [digitsOf_ne_nil]⟩
  · simp [Numeral.text, Numeral.fractionText, Numeral.powerText, digitsOf_ne_nil, zeros]
  · have hlength : (zeros (k - (digitsOf s.digits).length)).length =
        k - (digitsOf s.digits).length := List.length_replicate
    simp only [Numeral.value, Scientific.value, hk, ofDigits_append, ofDigits_zeros,
      ofDigits_digitsOf, List.length_append, hlength, Option.getD_none]
    rw [Nat.sub_add_cancel hle]
    simp

/-- Positional notation, with a point and a zero behind an integer. -/
lemma exists_numeral_positional (hne : s.digits ≠ 0) :
    ∃ n : Numeral,
      (if 0 ≤ s.exponent then s.positional ++ ['.', '0'] else s.positional) = n.text ∧
        n.value = s.value ∧ n.whole ≠ [] ∧ n.fraction ≠ [] := by
  unfold Scientific.positional
  dsimp only
  split
  · next hexponent =>
    obtain ⟨k, hk⟩ := Int.eq_ofNat_of_zero_le hexponent
    rw [if_neg (by simpa using hne), hk, Int.toNat_natCast]
    exact exists_numeral_integer hk
  next hexponent =>
  obtain ⟨k, hk⟩ : ∃ k : Nat, s.exponent = -k := ⟨(-s.exponent).toNat, by omega⟩
  simp only [hk, neg_neg, Int.toNat_natCast]
  split
  · next hlt => exact exists_numeral_point hk (by omega) hlt
  · next hle => exact exists_numeral_zeros hk (Nat.le_of_not_lt hle)

end

/-- **A double is written as a numeral with its value**, never like an integer. -/
theorem exists_numeral (s : Scientific) :
    ∃ n : Numeral, Value.jsonMagnitude s = n.text ∧ n.value = s.value ∧ n.whole ≠ [] ∧
      (n.fraction = [] → n.power ≠ none) := by
  unfold Value.jsonMagnitude
  dsimp only
  split
  · next hzero =>
    have hdigits : s.digits = 0 := by simpa using hzero
    refine ⟨⟨zeros 1, zeros 1, none, fun _ => isDigit_of_mem_zeros, fun _ => isDigit_of_mem_zeros⟩,
      rfl, ?_, by simp [zeros], by simp [zeros]⟩
    simp [Numeral.value, Scientific.value, hdigits, ofDigits_append]
  next hzero =>
  split
  · obtain ⟨n, htext, hvalue, hwhole, hfraction⟩ :=
      exists_numeral_positional (s := s) (by simpa using hzero)
    exact ⟨n, htext, hvalue, hwhole, fun h => absurd h hfraction⟩
  · obtain ⟨d, rest, hdigits⟩ := List.exists_cons_of_ne_nil (digitsOf_ne_nil s.digits)
    have hall : ∀ c ∈ d :: rest, c.isDigit := fun c hc => isDigit_of_mem_digitsOf (hdigits ▸ hc)
    refine ⟨⟨[d], rest, some s.lead, fun c hc => hall c (by simp_all),
      fun c hc => hall c (by simp [hc])⟩,
      ?_, ?_, by simp, by simp⟩
    · simp only [Numeral.text, Numeral.powerText, Numeral.fractionText, hdigits]
      cases rest with
      | nil => rfl
      | cons e rest => simp
    · rw [Numeral.value_split s.digits (by simp [hdigits]), Scientific.value,
        Scientific.lead, hdigits]
      simp [add_sub_assoc]

end BracketTemplate
