import Mathlib
import BracketTemplate.Environment.Name
import BracketTemplate.Proofs.Script.Tokens
import BracketTemplate.Proofs.Text.Utf8

/-!
# Names that scripts can read

A binding and a function are global variables of scripts, so what is accepted as a name for them has
to be a name of the script language.  It is one by its characters (`isBindingName_iff`), and the
lexer takes its bytes for one token, which is no keyword (`IsIdentifier.reads`).
-/

namespace BracketTemplate

open Script

/-! ## Names -/

/-- A letter or an underscore. -/
def IsLetter (c : Char) : Prop := 'a' ≤ c ∧ c ≤ 'z' ∨ 'A' ≤ c ∧ c ≤ 'Z' ∨ c = '_'

/-- A name of the script language: it starts with a letter or an underscore and goes on with
letters, digits and underscores, and it is no keyword. -/
structure IsIdentifier (name : String) : Prop where
  shape : ∃ c rest, name.toList = c :: rest ∧ IsLetter c ∧
    ∀ d ∈ rest, IsLetter d ∨ '0' ≤ d ∧ d ≤ '9'
  noKeyword : name ∉ keywords

lemma isNameStart_iff {c : Char} : isNameStart c = true ↔ IsLetter c := by
  simp only [isNameStart, Char.isAlpha, Char.isUpper, Char.isLower, Bool.or_eq_true,
    Bool.and_eq_true, decide_eq_true_eq, IsLetter, Char.le_def]
  tauto

lemma isNamePart_iff {c : Char} : isNamePart c = true ↔ IsLetter c ∨ '0' ≤ c ∧ c ≤ '9' := by
  have hstart := isNameStart_iff (c := c)
  simp only [isNameStart, isNamePart, Char.isAlphanum, Char.isDigit, Bool.or_eq_true,
    Bool.and_eq_true, decide_eq_true_eq, Char.le_def] at hstart ⊢
  rw [← hstart]
  tauto

/-- **What is accepted as a name is a name of the language.** -/
lemma isBindingName_iff {name : String} : isBindingName name = true ↔ IsIdentifier name := by
  have hwords : scriptWords = keywords := rfl
  unfold isBindingName
  split
  · next hnil =>
    refine ⟨fun h => Bool.noConfusion h, fun h => ?_⟩
    obtain ⟨c, rest, hcons, -⟩ := h.shape
    rw [hnil] at hcons
    cases hcons
  · next c rest hcons =>
    simp only [Bool.and_eq_true, Bool.not_eq_true', List.all_eq_true, isNameStart_iff,
      isNamePart_iff, hwords, List.contains_eq_mem, decide_eq_false_iff_not]
    constructor
    · rintro ⟨⟨hstart, hrest⟩, hkeyword⟩
      exact ⟨⟨c, rest, hcons, hstart, hrest⟩, hkeyword⟩
    · rintro ⟨⟨c', rest', hcons', hstart, hrest⟩, hkeyword⟩
      rw [hcons] at hcons'
      obtain ⟨rfl, rfl⟩ := List.cons.inj hcons'
      exact ⟨⟨hstart, hrest⟩, hkeyword⟩

instance (name : String) : Decidable (IsIdentifier name) := decidable_of_iff _ isBindingName_iff

/-! ## Names in scripts -/

lemma toNat_of_isLetter {c : Char} (h : IsLetter c) :
    97 ≤ c.toNat ∧ c.toNat ≤ 122 ∨ 65 ≤ c.toNat ∧ c.toNat ≤ 90 ∨ c.toNat = 95 := by
  rcases h with ⟨hfirst, hlast⟩ | ⟨hfirst, hlast⟩ | rfl
  · exact .inl ⟨UInt32.le_iff_toNat_le.1 hfirst, UInt32.le_iff_toNat_le.1 hlast⟩
  · exact .inr (.inl ⟨UInt32.le_iff_toNat_le.1 hfirst, UInt32.le_iff_toNat_le.1 hlast⟩)
  · exact .inr (.inr rfl)

/-- A letter is written as one byte, with which a name can start. -/
lemma encodeChar_of_isLetter {c : Char} (h : IsLetter c) :
    ∃ b, Utf8.encodeChar c = [b] ∧ Byte.isNameStart b = true := by
  have hcode := toNat_of_isLetter h
  obtain ⟨b, hb, hbyte⟩ := Utf8.encodeChar_ascii (c := c) (by omega)
  refine ⟨b, hb, ?_⟩
  simp only [Byte.isNameStart, Byte.isAlpha, Bool.or_eq_true, Bool.and_eq_true, decide_eq_true_eq,
    beq_iff_eq, UInt8.le_iff_toNat_le, ← UInt8.toNat_inj, hbyte, UInt8.reduceToNat]
  omega

/-- A digit is written as one byte, with which a name can go on. -/
lemma encodeChar_of_digit {c : Char} (hfirst : '0' ≤ c) (hlast : c ≤ '9') :
    ∃ b, Utf8.encodeChar c = [b] ∧ Byte.isNamePart b = true := by
  have hlow : 48 ≤ c.toNat := UInt32.le_iff_toNat_le.1 hfirst
  have hhigh : c.toNat ≤ 57 := UInt32.le_iff_toNat_le.1 hlast
  obtain ⟨b, hb, hbyte⟩ := Utf8.encodeChar_ascii (c := c) (by omega)
  refine ⟨b, hb, ?_⟩
  simp only [Byte.isNamePart, Byte.isDigit, Bool.or_eq_true, Bool.and_eq_true, decide_eq_true_eq,
    UInt8.le_iff_toNat_le, hbyte, UInt8.reduceToNat]
  exact .inr ⟨hlow, hhigh⟩

lemma isSpace_of_isNameStart {b : UInt8} (h : Byte.isNameStart b = true) :
    Byte.isSpace b = false := by
  simp only [Byte.isNameStart, Byte.isAlpha, Bool.or_eq_true, Bool.and_eq_true, decide_eq_true_eq,
    beq_iff_eq, UInt8.le_iff_toNat_le, ← UInt8.toNat_inj, UInt8.reduceToNat] at h
  rw [← Bool.not_eq_true]
  simp only [Byte.isSpace, Bool.or_eq_true, Bool.and_eq_true, decide_eq_true_eq, beq_iff_eq,
    UInt8.le_iff_toNat_le, ← UInt8.toNat_inj, UInt8.reduceToNat]
  omega

/-- **The lexer reads an identifier as one name**, up to a byte that no name has. -/
theorem IsIdentifier.reads {name : String} (h : IsIdentifier name) {x : UInt8}
    (hx : Byte.isNamePart x = false) (m : Bytes) :
    Reads (utf8 name ++ x :: m) (.name (utf8 name)) (x :: m) := by
  obtain ⟨c, rest, hname, hstart, hrest⟩ := h.shape
  obtain ⟨b, hb, hletter⟩ := encodeChar_of_isLetter hstart
  have hbytes : utf8 name = b :: Utf8.encode rest := by
    rw [utf8, hname, Utf8.encode, List.flatMap_cons, hb]
    rfl
  have hparts : ∀ d ∈ Utf8.encode rest, Byte.isNamePart d = true := by
    intro d hd
    obtain ⟨e, he, hmem⟩ := List.mem_flatMap.1 hd
    rcases hrest e he with hletter | ⟨hfirst, hlast⟩
    · obtain ⟨d', hd', hpart⟩ := encodeChar_of_isLetter hletter
      rw [hd', List.mem_singleton] at hmem
      rw [hmem, Byte.isNamePart, hpart, Bool.true_or]
    · obtain ⟨d', hd', hpart⟩ := encodeChar_of_digit hfirst hlast
      rw [hd', List.mem_singleton] at hmem
      rw [hmem, hpart]
  have hkeyword : (keywords.find? fun k => utf8 k == utf8 name) = none := by
    refine List.find?_eq_none.2 fun k hk heq => h.noKeyword ?_
    rwa [← utf8_injective (beq_iff_eq.1 heq)]
  have hdash : b ≠ 45 := by
    rintro rfl
    revert hletter
    decide
  have hreads := reads_word hletter hparts hx (isSpace_of_isNameStart hletter) hdash m
  rw [← hbytes, hkeyword] at hreads
  exact hreads

/-! ## Spellings -/

/-- One at sign in front is no part of a name. -/
lemma bindingName_at (name : String) : bindingName ("@" ++ name) = name := by
  have hcons : ("@" ++ name).toList = '@' :: name.toList := by simp
  rw [bindingName, hcons]
  exact String.ofList_toList

lemma bindingName_of_ne {name : String} (h : name.toList.head? ≠ some '@') :
    bindingName name = name := by
  unfold bindingName
  split
  · next hcons => exact absurd (by rw [hcons]; rfl) h
  · rfl

end BracketTemplate
