import Mathlib
import BracketTemplate.Text.Utf8

/-!
# Text goes through bytes unchanged

The bytes of a character start a sequence that is read as this character, whatever follows
(`next_encodeChar`).  So the bytes of a text decode to the text (`decodeLossy_encode`, `text_utf8`),
and different texts have different bytes (`utf8_injective`).
-/

namespace BracketTemplate

namespace Utf8

lemma toNat_ofNat_of_lt {n : Nat} (h : n < 256) : (UInt8.ofNat n).toNat = n := by
  rw [UInt8.toNat_ofNat']
  omega

/-- Comparisons of bytes are those of their numbers. -/
lemma width_eq (b : UInt8) : width b =
    if b.toNat < 0x80 then 1
    else if 0xC2 ≤ b.toNat ∧ b.toNat ≤ 0xDF then 2
    else if 0xE0 ≤ b.toNat ∧ b.toNat ≤ 0xEF then 3
    else if 0xF0 ≤ b.toNat ∧ b.toNat ≤ 0xF4 then 4
    else 0 := by
  simp [width, UInt8.lt_iff_toNat_lt, UInt8.le_iff_toNat_le]

lemma isContinuation_iff {b : UInt8} :
    isContinuation b = true ↔ 0x80 ≤ b.toNat ∧ b.toNat < 0xC0 := by
  simp [isContinuation, UInt8.lt_iff_toNat_lt, UInt8.le_iff_toNat_le]

/-- The second byte of a sequence continues it, and after some first bytes it has to do more. -/
lemma secondByteRange_iff (first b : UInt8) :
    ((secondByteRange first).1 ≤ b && b ≤ (secondByteRange first).2) = true ↔
      (0x80 ≤ b.toNat ∧ b.toNat ≤ 0xBF) ∧ (first.toNat = 0xE0 → 0xA0 ≤ b.toNat) ∧
        (first.toNat = 0xED → b.toNat ≤ 0x9F) ∧ (first.toNat = 0xF0 → 0x90 ≤ b.toNat) ∧
        (first.toNat = 0xF4 → b.toNat ≤ 0x8F) := by
  have heq : ∀ n : UInt8, (first == n) = true ↔ first.toNat = n.toNat := fun n => by
    rw [beq_iff_eq, UInt8.toNat_inj]
  unfold secondByteRange
  simp only [heq, UInt8.reduceToNat]
  split
  · simp [UInt8.le_iff_toNat_le]
    omega
  split
  · simp [UInt8.le_iff_toNat_le]
    omega
  split
  · simp [UInt8.le_iff_toNat_le]
    omega
  split
  · simp [UInt8.le_iff_toNat_le]
    omega
  · simp [UInt8.le_iff_toNat_le]
    omega

/-- One of the first 128 characters is written as its own number. -/
lemma encodeChar_ascii {c : Char} (h : c.toNat < 0x80) :
    ∃ b, encodeChar c = [b] ∧ b.toNat = c.toNat :=
  ⟨UInt8.ofNat c.toNat, by rw [encodeChar, if_pos h], toNat_ofNat_of_lt (by omega)⟩

lemma ofNat_eq {c : Char} {n : Nat} (h : n = c.toNat) : Char.ofNat n = c := by
  rw [h, Char.ofNat_toNat]

/-- A character is a scalar value. -/
lemma toNat_cases (c : Char) : c.toNat < 0xD800 ∨ 0xDFFF < c.toNat ∧ c.toNat < 0x110000 := by
  rcases c.valid with h | h
  · exact .inl h
  · exact .inr h

/-- **The bytes of a character are read as this character.** -/
theorem next_encodeChar (c : Char) (rest : Bytes) :
    ∃ first others, encodeChar c = first :: others ∧
      next first (others ++ rest) = .scalar c (others.length + 1) := by
  have hscalar := toNat_cases c
  unfold encodeChar
  dsimp only
  by_cases h1 : c.toNat < 0x80
  · rw [if_pos h1]
    have hfirst : (UInt8.ofNat c.toNat).toNat = c.toNat := toNat_ofNat_of_lt (by omega)
    have hwidth : width (UInt8.ofNat c.toNat) = 1 := by
      rw [width_eq, hfirst, if_pos h1]
    refine ⟨_, _, rfl, ?_⟩
    simp only [next, hwidth, hfirst]
    rw [ofNat_eq rfl]
    rfl
  rw [if_neg h1]
  by_cases h2 : c.toNat < 0x800
  · rw [if_pos h2]
    have hfirst : (UInt8.ofNat (0xC0 + c.toNat / 0x40)).toNat = 0xC0 + c.toNat / 0x40 :=
      toNat_ofNat_of_lt (by omega)
    have hsecond : (UInt8.ofNat (0x80 + c.toNat % 0x40)).toNat = 0x80 + c.toNat % 0x40 :=
      toNat_ofNat_of_lt (by omega)
    have hwidth : width (UInt8.ofNat (0xC0 + c.toNat / 0x40)) = 2 := by
      rw [width_eq, hfirst, if_neg (by omega), if_pos (by omega)]
    have hcontinues : isContinuation (UInt8.ofNat (0x80 + c.toNat % 0x40)) = true :=
      isContinuation_iff.2 (by omega)
    refine ⟨_, _, rfl, ?_⟩
    simp only [next, hwidth, List.cons_append, List.nil_append, hcontinues, if_true, low, hfirst,
      hsecond]
    rw [ofNat_eq (c := c) (by omega)]
    rfl
  rw [if_neg h2]
  have hthird : (UInt8.ofNat (0x80 + c.toNat % 0x40)).toNat = 0x80 + c.toNat % 0x40 :=
    toNat_ofNat_of_lt (by omega)
  have hlast : isContinuation (UInt8.ofNat (0x80 + c.toNat % 0x40)) = true :=
    isContinuation_iff.2 (by omega)
  have hmiddle : (UInt8.ofNat (0x80 + c.toNat / 0x40 % 0x40)).toNat =
      0x80 + c.toNat / 0x40 % 0x40 := toNat_ofNat_of_lt (by omega)
  by_cases h3 : c.toNat < 0x10000
  · rw [if_pos h3]
    have hfirst : (UInt8.ofNat (0xE0 + c.toNat / 0x1000)).toNat = 0xE0 + c.toNat / 0x1000 :=
      toNat_ofNat_of_lt (by omega)
    have hwidth : width (UInt8.ofNat (0xE0 + c.toNat / 0x1000)) = 3 := by
      rw [width_eq, hfirst, if_neg (by omega), if_neg (by omega), if_pos (by omega)]
    have hrange := (secondByteRange_iff (UInt8.ofNat (0xE0 + c.toNat / 0x1000))
      (UInt8.ofNat (0x80 + c.toNat / 0x40 % 0x40))).2 (by omega)
    refine ⟨_, _, rfl, ?_⟩
    simp only [next, hwidth, List.cons_append, List.nil_append, hrange, if_true, hlast, low, hfirst,
      hmiddle, hthird]
    rw [ofNat_eq (c := c) (by omega)]
    rfl
  · rw [if_neg h3]
    have hfirst : (UInt8.ofNat (0xF0 + c.toNat / 0x40000)).toNat = 0xF0 + c.toNat / 0x40000 :=
      toNat_ofNat_of_lt (by omega)
    have hsecond : (UInt8.ofNat (0x80 + c.toNat / 0x1000 % 0x40)).toNat =
        0x80 + c.toNat / 0x1000 % 0x40 := toNat_ofNat_of_lt (by omega)
    have hwidth : width (UInt8.ofNat (0xF0 + c.toNat / 0x40000)) = 4 := by
      rw [width_eq, hfirst, if_neg (by omega), if_neg (by omega), if_neg (by omega),
        if_pos (by omega)]
    have hrange := (secondByteRange_iff (UInt8.ofNat (0xF0 + c.toNat / 0x40000))
      (UInt8.ofNat (0x80 + c.toNat / 0x1000 % 0x40))).2 (by omega)
    have hcontinues : isContinuation (UInt8.ofNat (0x80 + c.toNat / 0x40 % 0x40)) = true :=
      isContinuation_iff.2 (by omega)
    refine ⟨_, _, rfl, ?_⟩
    simp only [next, hwidth, List.cons_append, List.nil_append, hrange, if_true, hcontinues, hlast,
      low, hfirst, hsecond, hmiddle, hthird]
    rw [ofNat_eq (c := c) (by omega)]
    rfl

/-- Bytes that belong to a character already read are passed over. -/
lemma decodeLossyFrom_append (skipped rest : Bytes) :
    decodeLossyFrom skipped.length (skipped ++ rest) = decodeLossyFrom 0 rest := by
  induction skipped with
  | nil => rfl
  | cons b skipped ih => exact ih

lemma decodeLossy_encodeChar (c : Char) (rest : Bytes) :
    decodeLossy (encodeChar c ++ rest) = c :: decodeLossy rest := by
  obtain ⟨first, others, hbytes, hnext⟩ := next_encodeChar c rest
  rw [hbytes, List.cons_append, decodeLossy, decodeLossyFrom, hnext]
  exact congrArg (c :: ·) (decodeLossyFrom_append others rest)

/-- **The bytes of a text decode to it.** -/
@[simp] theorem decodeLossy_encode (text : List Char) : decodeLossy (encode text) = text := by
  induction text with
  | nil => rfl
  | cons c text ih =>
    have hcons : encode (c :: text) = encodeChar c ++ encode text := rfl
    rw [hcons, decodeLossy_encodeChar, ih]

lemma decodeFrom_append (index : Nat) (skipped rest : Bytes) :
    decodeFrom skipped.length index (skipped ++ rest) =
      decodeFrom 0 (index + skipped.length) rest := by
  induction skipped generalizing index with
  | nil => rfl
  | cons b skipped ih =>
    rw [List.length_cons, List.cons_append, decodeFrom, ih, Nat.add_right_comm, Nat.add_assoc]

/-- The bytes of a text are well-formed. -/
lemma decode?_encode (text : List Char) : decode? (encode text) = .ok text := by
  suffices h : ∀ index, decodeFrom 0 index (encode text) = .ok text from h 0
  induction text with
  | nil => exact fun index => rfl
  | cons c text ih =>
    intro index
    obtain ⟨first, others, hbytes, hnext⟩ := next_encodeChar c (encode text)
    have hcons : encode (c :: text) = first :: (others ++ encode text) :=
      congrArg (· ++ encode text) hbytes
    rw [hcons, decodeFrom, hnext]
    simp only [Nat.add_sub_cancel, decodeFrom_append, ih]
    rfl

end Utf8

/-- The text of the bytes of a text is that text. -/
@[simp] lemma text_utf8 (s : String) : (utf8 s).text = s := by
  rw [Bytes.text, utf8, Utf8.decodeLossy_encode, String.ofList_toList]

/-- **Different texts have different bytes.** -/
theorem utf8_injective : Function.Injective utf8 := by
  intro s s' h
  rw [← text_utf8 s, h, text_utf8]

end BracketTemplate
