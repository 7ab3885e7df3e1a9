import Mathlib
import BracketTemplate.Script.Table

/-!
# Keys of tables

A value is a key of a table in one form only: `nil` and what is not a number are no keys, and a
double that is an integer is that integer (`Val.IsKey`).  On values in that form the test by which a
table finds its entries is equality (`Val.sameKey_iff`), though it compares doubles as numbers, for
which the two zeros are one and what is not a number differs from itself.
-/

namespace BracketTemplate.Script.Val

/-- A value that can be a key, in the form in which it is one. -/
def IsKey (v : Val) : Prop := v ≠ .nil ∧ v ≠ .float Float.nan ∧ v.toKey = v

/-- The form in which a value is a key has no other form. -/
lemma toKey_toKey (v : Val) : v.toKey.toKey = v.toKey := by
  cases v with
  | float x =>
    rw [toKey]
    cases hint : intOfFloat? x with
    | some i => rfl
    | none => simp only [toKey, hint]
  | _ => rfl

/-- Every value but `nil` and what is not a number has a form as a key. -/
lemma isKey_toKey {v : Val} (hnil : v ≠ .nil) (hnan : v ≠ .float Float.nan) : v.toKey.IsKey := by
  refine ⟨?_, ?_, v.toKey_toKey⟩
  · cases v with
    | nil => exact absurd rfl hnil
    | float x =>
      rw [toKey]
      split <;> simp
    | _ => simp [toKey]
  · cases v with
    | float x =>
      rw [toKey]
      split
      · simp
      · exact hnan
    | _ => simp [toKey]

lemma isKey_int (i : Int64) : (Val.int i).IsKey := ⟨by simp, by simp, rfl⟩

lemma isKey_ofNat (n : Nat) : (Val.ofNat n).IsKey := isKey_int _

lemma isKey_str (text : Bytes) : (Val.str text).IsKey := ⟨by simp, by simp, rfl⟩

lemma isKey_ofString (s : String) : (Val.ofString s).IsKey := isKey_str _

/-- Zero is an integer, whatever its sign. -/
lemma intOfFloat?_zero : intOfFloat? 0 = some 0 ∧ intOfFloat? (-0) = some 0 := by
  decide +kernel

/-- **Keys are found by equality.** -/
theorem sameKey_iff {a b : Val} (ha : a.IsKey) (hb : b.IsKey) : a.sameKey b = true ↔ a = b := by
  cases a <;> cases b
  case float.float x y =>
    obtain ⟨-, hnan, hkey⟩ := ha
    have hx : x ≠ Float.nan := fun heq => hnan (by rw [heq])
    have hy : y ≠ Float.nan := fun heq => hb.2.1 (by rw [heq])
    -- a zero would be an integer
    have hzero : intOfFloat? x = none := by
      cases hint : intOfFloat? x with
      | none => rfl
      | some i =>
        simp only [toKey, hint] at hkey
        cases hkey
    have hpos : x ≠ 0 := by
      intro heq
      rw [heq, intOfFloat?_zero.1] at hzero
      cases hzero
    have hneg : x ≠ -0 := by
      intro heq
      rw [heq, intOfFloat?_zero.2] at hzero
      cases hzero
    simp only [sameKey, Float.beq_iff_ne_nan_and_eq, float.injEq]
    constructor
    · rintro ⟨-, -, heq | ⟨hx0, -⟩ | ⟨hx0, -⟩⟩
      · exact heq
      · exact absurd hx0 hpos
      · exact absurd hx0 hneg
    · rintro rfl
      exact ⟨hx, hx, .inl rfl⟩
  case nil.nil => exact absurd rfl ha.1
  all_goals simp [sameKey, rawEqual]

/-- Natural numbers are different keys, as far as integers go. -/
lemma ofNat_inj {m n : Nat} (hm : m < 2 ^ 63) (hn : n < 2 ^ 63) :
    Val.ofNat m = Val.ofNat n ↔ m = n := by
  constructor
  · intro heq
    have hint : Int64.ofNat m = Int64.ofNat n := by simpa [ofNat] using heq
    have hm' := Int64.toInt_ofNat_of_lt hm
    have hn' := Int64.toInt_ofNat_of_lt hn
    rw [hint, hn'] at hm'
    omega
  · rintro rfl
    rfl

end BracketTemplate.Script.Val
