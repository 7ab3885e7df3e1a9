import Mathlib
import BracketTemplate.Proofs.Decimal.Numeral

/-!
# The text of a number determines it

Integers are written without a point or an exponent and doubles never are, so the text of a number
tells the two apart.  Two integers with one text are equal because their digits are; two finite
doubles are, because both round to the decimal that is written (`Binary64.shortest_inj`).
-/

namespace BracketTemplate

open Decimal

namespace Binary64

/-! ## Doubles taken apart -/

/-- The parts of a finite double are read off its bits. -/
lemma ofFloat_eq_finite {x : Float} {negative : Bool} {mantissa : Nat} {exponent : Int}
    (h : ofFloat x = .finite negative mantissa exponent) :
    ∃ sign biased fraction : Nat, x.toBits.toNat = sign * 2 ^ 63 + biased * 2 ^ 52 + fraction ∧
      sign < 2 ∧ biased < 2047 ∧ fraction < 2 ^ 52 ∧ (negative = true ↔ sign = 1) ∧
        (biased = 0 ∧ mantissa = fraction ∧ exponent = -1074 ∨
          biased ≠ 0 ∧ mantissa = 2 ^ 52 + fraction ∧ exponent = biased - 1075) := by
  have hlt : x.toBits.toNat < 2 ^ 64 := x.toBits.toNat_lt
  refine ⟨x.toBits.toNat / 2 ^ 63, x.toBits.toNat / 2 ^ 52 % 2 ^ 11, x.toBits.toNat % 2 ^ 52, ?_⟩
  unfold ofFloat at h
  generalize x.toBits.toNat = bits at *
  refine ⟨by omega, by omega, ?_⟩
  dsimp only at h
  split at h
  · split at h <;> cases h
  next hinfinite =>
  have hbiased : bits / 2 ^ 52 % 2 ^ 11 ≠ 2047 := by simpa [twoTo] using hinfinite
  refine ⟨by omega, by omega, ?_⟩
  split at h
  · next hleast =>
    cases h
    exact ⟨beq_iff_eq, .inl ⟨by simpa [twoTo] using hleast, rfl, rfl⟩⟩
  · next hleast =>
    cases h
    exact ⟨beq_iff_eq, .inr ⟨by simpa [twoTo] using hleast, rfl, rfl⟩⟩

/-- A finite double has no more bits than there is room for. -/
lemma canonical_ofFloat {x : Float} {negative : Bool} {mantissa : Nat} {exponent : Int}
    (h : ofFloat x = .finite negative mantissa exponent) : Canonical mantissa exponent := by
  obtain ⟨_, _, _, -, -, -, hfraction, -, hparts⟩ := ofFloat_eq_finite h
  exact ⟨by omega, by omega, by omega⟩

/-- **A finite double is determined by its parts.** -/
theorem ofFloat_inj {x y : Float} {negative : Bool} {mantissa : Nat} {exponent : Int}
    (h : ofFloat x = .finite negative mantissa exponent)
    (k : ofFloat y = .finite negative mantissa exponent) : x = y := by
  obtain ⟨sign, biased, fraction, hx, hsign, -, hfraction, hnegative, hparts⟩ := ofFloat_eq_finite h
  obtain ⟨sign', biased', fraction', hy, hsign', -, hfraction', hnegative', hparts'⟩ :=
    ofFloat_eq_finite k
  have hsame : sign = sign' := by
    rw [hnegative] at hnegative'
    omega
  have hbits : x.toBits.toNat = y.toBits.toNat := by
    rw [hx, hy]
    omega
  exact Float.toBits_inj.1 (UInt64.toNat_inj.1 hbits)

/-- **Doubles with one shortest decimal are equal** but for the sign. -/
theorem shortest_inj {mantissa mantissa' : Nat} {exponent exponent' : Int}
    (h : Canonical mantissa exponent) (h' : Canonical mantissa' exponent')
    (hvalue : (shortest mantissa exponent).value = (shortest mantissa' exponent').value) :
    mantissa = mantissa' ∧ exponent = exponent' := by
  have hzero : ∀ exponent : Int, (shortest 0 exponent).value = 0 := fun _ => by
    simp [shortest, Scientific.value]
  have hpos : ∀ {mantissa exponent}, Canonical mantissa exponent → mantissa ≠ 0 →
      (shortest mantissa exponent).value ≠ 0 :=
    fun hm hne => ((rounds_shortest hm hne).pos hne).ne'
  by_cases hne : mantissa = 0 <;> by_cases hne' : mantissa' = 0
  · subst hne hne'
    -- zero has the least exponent
    have hleast := h.normal
    have hleast' := h'.normal
    exact ⟨rfl, by omega⟩
  · subst hne
    exact absurd (hvalue.symm.trans (hzero _)) (hpos h' hne')
  · subst hne'
    exact absurd (hvalue.trans (hzero _)) (hpos h hne)
  · exact Rounds.unique h h' hne hne' (rounds_shortest h hne) (hvalue ▸ rounds_shortest h' hne')

end Binary64

/-! ## Texts of numbers -/

/-- A numeral behind a minus, if there is one. -/
def Numeral.signed (negative : Bool) (n : Numeral) : List Char :=
  if negative then '-' :: n.text else n.text

/-- The first character of a numeral with digits. -/
lemma Numeral.head_signed (negative : Bool) {n : Numeral} (h : n.whole ≠ []) :
    ∃ c rest, n.signed negative = c :: rest ∧ (c = '-' ∨ c.isDigit) ∧
      (c = '-' ↔ negative = true) := by
  obtain ⟨d, rest, hwhole⟩ := List.exists_cons_of_ne_nil h
  have hd : d.isDigit := n.whole_digits d (by simp [hwhole])
  have hne : d ≠ '-' := by
    rintro rfl
    exact absurd hd (by decide)
  cases negative with
  | true => exact ⟨'-', _, rfl, .inl rfl, by simp⟩
  | false =>
    exact ⟨d, _, by simp only [Numeral.signed, Numeral.text, hwhole]; rfl, .inr hd,
      by simpa using hne⟩

/-- The text of a numeral with a sign determines both. -/
lemma Numeral.signed_inj {negative negative' : Bool} {n m : Numeral} {rest rest' : List Char}
    (h : n.signed negative ++ rest = m.signed negative' ++ rest') (hn : n.whole ≠ [])
    (hm : m.whole ≠ []) (hrest : Stops rest) (hrest' : Stops rest') :
    negative = negative' ∧ n = m ∧ rest = rest' := by
  obtain ⟨c, text, hc, -, hsign⟩ := head_signed negative hn
  obtain ⟨c', text', hc', -, hsign'⟩ := head_signed negative' hm
  have hhead : c = c' := by
    rw [hc, hc'] at h
    exact (List.cons.inj h).1
  obtain rfl : negative = negative' := by
    rw [Bool.eq_iff_iff, ← hsign, ← hsign', hhead]
  refine ⟨rfl, Numeral.text_inj ?_ hrest hrest'⟩
  cases negative with
  | true => exact (List.cons.inj h).2
  | false => exact h

namespace Value

/-- An integer is written as a numeral without a point or a power of ten. -/
lemma toList_intText (i : Int64) :
    (intText i).toList = (Numeral.ofNat i.toInt.natAbs).signed (decide (i.toInt < 0)) := by
  unfold intText Numeral.signed
  simp only [decide_eq_true_eq, Numeral.text_ofNat]
  split
  · simp
  · simp

/-- A finite double is written as a numeral with a point or a power of ten. -/
lemma exists_jsonFloat {x : Float} {negative : Bool} {mantissa : Nat} {exponent : Int}
    (h : Binary64.ofFloat x = .finite negative mantissa exponent) :
    ∃ n : Numeral, (jsonFloat x).toList = n.signed negative ∧
      n.value = (shortest mantissa exponent).value ∧ n.whole ≠ [] ∧
      (n.fraction = [] → n.power ≠ none) := by
  obtain ⟨n, htext, hvalue, hwhole, hpoint⟩ := exists_numeral (shortest mantissa exponent)
  refine ⟨n, ?_, hvalue, hwhole, hpoint⟩
  simp only [jsonFloat, h, String.toList_ofList, htext, Numeral.signed]

variable {rest rest' : List Char}

/-- **The text of an integer determines it.** -/
theorem intText_inj {i j : Int64} (h : (intText i).toList ++ rest = (intText j).toList ++ rest')
    (hrest : Numeral.Stops rest) (hrest' : Numeral.Stops rest') : i = j ∧ rest = rest' := by
  rw [toList_intText, toList_intText] at h
  obtain ⟨hsign, hnumeral, hrest⟩ := Numeral.signed_inj h (digitsOf_ne_nil _) (digitsOf_ne_nil _)
    hrest hrest'
  have habs : i.toInt.natAbs = j.toInt.natAbs :=
    digitsOf_injective (congrArg Numeral.whole hnumeral)
  have hneg : i.toInt < 0 ↔ j.toInt < 0 := by simpa using hsign
  exact ⟨Int64.toInt_inj.1 (by omega), hrest⟩

/-- **The text of a finite double determines it.** -/
theorem jsonFloat_inj {x y : Float} {negative negative' : Bool} {mantissa mantissa' : Nat}
    {exponent exponent' : Int} (hx : Binary64.ofFloat x = .finite negative mantissa exponent)
    (hy : Binary64.ofFloat y = .finite negative' mantissa' exponent')
    (h : (jsonFloat x).toList ++ rest = (jsonFloat y).toList ++ rest')
    (hrest : Numeral.Stops rest) (hrest' : Numeral.Stops rest') : x = y ∧ rest = rest' := by
  obtain ⟨n, hn, hvalue, hwhole, -⟩ := exists_jsonFloat hx
  obtain ⟨m, hm, hvalue', hwhole', -⟩ := exists_jsonFloat hy
  rw [hn, hm] at h
  obtain ⟨rfl, rfl, hrest⟩ := Numeral.signed_inj h hwhole hwhole' hrest hrest'
  obtain ⟨rfl, rfl⟩ := Binary64.shortest_inj (Binary64.canonical_ofFloat hx)
    (Binary64.canonical_ofFloat hy) (hvalue.symm.trans hvalue')
  exact ⟨Binary64.ofFloat_inj hx hy, hrest⟩

/-- An integer is never written like a double. -/
theorem intText_ne_jsonFloat {i : Int64} {x : Float} {negative : Bool} {mantissa : Nat}
    {exponent : Int} (hx : Binary64.ofFloat x = .finite negative mantissa exponent)
    (hrest : Numeral.Stops rest) (hrest' : Numeral.Stops rest') :
    (intText i).toList ++ rest ≠ (jsonFloat x).toList ++ rest' := by
  intro h
  obtain ⟨n, hn, -, hwhole, hpoint⟩ := exists_jsonFloat hx
  rw [toList_intText, hn] at h
  obtain ⟨-, rfl, -⟩ := Numeral.signed_inj h (digitsOf_ne_nil _) hwhole hrest hrest'
  exact hpoint rfl rfl

end Value

end BracketTemplate
