import Mathlib
import BracketTemplate.Decimal.Shortest

/-!
# The shortest decimal of a double rounds to it

A double stands for all reals of an interval around it, and `Rounds` says which these are.
Seventeen digits always hit the interval, so the search for the fewest digits never ends outside of
it (`rounds_shortest`).  The intervals of different doubles have no number in common
(`Rounds.unique`), so a double can be told from the decimal it is written with.

All comparisons of the search are between quotients of naturals; `quotient_spec` takes them to the
rationals, once.
-/

namespace BracketTemplate

namespace Binary64

/-! ## Quotients -/

lemma zpow_mul_toNat {b : ℚ} (hb : b ≠ 0) (e : Int) : b ^ e * b ^ (-e).toNat = b ^ e.toNat := by
  rw [← zpow_natCast, ← zpow_natCast, ← zpow_add₀ hb]
  congr 1
  omega

/-- A quotient is the number that it stands for. -/
theorem quotient_spec (mantissa : Nat) (exponent power : Int) :
    0 < (quotient mantissa exponent power).2 ∧
      ((quotient mantissa exponent power).1 : ℚ) =
        (quotient mantissa exponent power).2 * (mantissa * 2 ^ exponent * 10 ^ power) := by
  have htwo := zpow_mul_toNat (b := 2) (by norm_num) exponent
  have hten := zpow_mul_toNat (b := 10) (by norm_num) power
  refine ⟨Nat.mul_pos (Nat.pow_pos (by norm_num)) (Nat.pow_pos (by norm_num)), ?_⟩
  simp only [quotient, twoTo, tenTo, Nat.pow_eq]
  push_cast
  rw [← htwo, ← hten]
  ring

/-- Rounding a quotient goes to one of the nearest naturals. -/
lemma roundHalfEven_near (numerator : Nat) {denominator : Nat} (h : 0 < denominator) :
    2 * numerator ≤ (2 * roundHalfEven numerator denominator + 1) * denominator ∧
      2 * roundHalfEven numerator denominator * denominator ≤ 2 * numerator + denominator := by
  have hdiv := Nat.div_add_mod numerator denominator
  have hmod := Nat.mod_lt numerator h
  unfold roundHalfEven
  dsimp only
  generalize numerator % denominator = rest at *
  generalize numerator / denominator = quotient at *
  split
  · constructor <;> nlinarith
  split
  · constructor <;> nlinarith
  · have hhalf : 2 * rest = denominator := by omega
    have heven : quotient % 2 = 0 ∨ quotient % 2 = 1 := by omega
    rcases heven with heven | heven <;> rw [heven] <;> constructor <;> nlinarith

/-! ## The leading digit -/

lemma ten_le_two : 10 ^ 30102 ≤ 2 ^ 100000 := by decide +kernel

lemma two_le_ten : 2 ^ 100000 ≤ 10 ^ 30103 := by decide +kernel

/-- The estimate of the leading digit is not above it. -/
lemma estimate_le {log : Int} (h : -1074 ≤ log) :
    (10 : ℚ) ^ (Int.fdiv (log * 30102) 100000 - 1) ≤ 2 ^ log := by
  have hfloor : 100000 * Int.fdiv (log * 30102) 100000 ≤ log * 30102 := by
    rw [Int.fdiv_eq_ediv_of_nonneg _ (by norm_num)]
    omega
  generalize Int.fdiv (log * 30102) 100000 = k at *
  have hpow : ∀ {a b : ℚ}, 0 ≤ b → a ^ 100000 ≤ b ^ 100000 → a ≤ b :=
    fun hb hab => le_of_pow_le_pow_left₀ (by norm_num) hb hab
  refine hpow (by positivity) ?_
  rw [← zpow_natCast, ← zpow_natCast, ← zpow_mul, ← zpow_mul]
  rcases le_total 0 log with hlog | hlog
  · calc (10 : ℚ) ^ ((k - 1) * ((100000 : ℕ) : ℤ))
        ≤ 10 ^ (30102 * log) := zpow_le_zpow_right₀ (by norm_num) (by push_cast; omega)
      _ = ((10 ^ 30102 : ℕ) : ℚ) ^ log := by
          rw [zpow_mul]
          norm_cast
      _ ≤ ((2 ^ 100000 : ℕ) : ℚ) ^ log :=
          zpow_le_zpow_left₀ hlog (by positivity) (by exact_mod_cast ten_le_two)
      _ = 2 ^ (log * ((100000 : ℕ) : ℤ)) := by
          rw [mul_comm, zpow_mul]
          norm_cast
  · -- below one, the estimate is one less than it need be
    calc (10 : ℚ) ^ ((k - 1) * ((100000 : ℕ) : ℤ))
        ≤ 10 ^ (30103 * log) := zpow_le_zpow_right₀ (by norm_num) (by push_cast; omega)
      _ = ((10 ^ 30103 : ℕ) : ℚ) ^ log := by
          rw [zpow_mul]
          norm_cast
      _ ≤ ((2 ^ 100000 : ℕ) : ℚ) ^ log := by
          obtain ⟨n, rfl⟩ := Int.exists_eq_neg_ofNat hlog
          rw [zpow_neg, zpow_neg, zpow_natCast, zpow_natCast]
          refine inv_anti₀ (by positivity) (pow_le_pow_left₀ (by positivity) ?_ n)
          exact_mod_cast two_le_ten
      _ = 2 ^ (log * ((100000 : ℕ) : ℤ)) := by
          rw [mul_comm, zpow_mul]
          norm_cast

/-- **The leading digit is not above the number.** -/
theorem leadingExponent_le {mantissa : Nat} {exponent : Int} (hne : mantissa ≠ 0)
    (h : -1074 ≤ exponent) :
    (10 : ℚ) ^ leadingExponent mantissa exponent ≤ mantissa * 2 ^ exponent := by
  have hreaches : ∀ k : Int,
      decide ((quotient mantissa exponent (-k)).2 ≤ (quotient mantissa exponent (-k)).1) = true →
        (10 : ℚ) ^ k ≤ mantissa * 2 ^ exponent := by
    intro k hk
    obtain ⟨hpos, hvalue⟩ := quotient_spec mantissa exponent (-k)
    have hle : ((quotient mantissa exponent (-k)).2 : ℚ) ≤ (quotient mantissa exponent (-k)).1 := by
      exact_mod_cast of_decide_eq_true hk
    have hpos' : (0 : ℚ) < (quotient mantissa exponent (-k)).2 := by exact_mod_cast hpos
    rw [hvalue, zpow_neg, le_mul_iff_one_le_right hpos', ← div_eq_mul_inv,
      one_le_div (by positivity)] at hle
    exact hle
  have hlog : (2 : ℚ) ^ (Int.ofNat mantissa.log2 + exponent) ≤ mantissa * 2 ^ exponent := by
    have hle : ((2 ^ mantissa.log2 : ℕ) : ℚ) ≤ mantissa := by
      exact_mod_cast Nat.log2_self_le hne
    rw [zpow_add₀ (by norm_num), Int.ofNat_eq_natCast, zpow_natCast]
    push_cast at hle
    gcongr
  unfold leadingExponent
  dsimp only
  split
  · next hk => exact hreaches _ hk
  split
  · next hk => exact hreaches _ hk
  split
  · next hk => exact hreaches _ hk
  · refine (estimate_le ?_).trans hlog
    rw [Int.ofNat_eq_natCast]
    omega

end Binary64

namespace Decimal

/-- The number that a decimal stands for. -/
def Scientific.value (s : Scientific) : ℚ := s.digits * 10 ^ s.exponent

/-! ## The interval of a double -/

/-- The mantissa and exponent of a finite double: the mantissa has 53 bits, or fewer at the least
exponent. -/
structure Canonical (mantissa : Nat) (exponent : Int) : Prop where
  lt : mantissa < 2 ^ 53
  least : -1074 ≤ exponent
  normal : exponent ≠ -1074 → 2 ^ 52 ≤ mantissa

/-- A number lies in the interval of a double, at one of its ends only if the mantissa is even. -/
def Rounds (mantissa : Nat) (exponent : Int) (q : ℚ) : Prop :=
  let low : ℚ := (roundingInterval mantissa exponent).1 * 2 ^ (exponent - 2)
  let high : ℚ := (roundingInterval mantissa exponent).2 * 2 ^ (exponent - 2)
  if mantissa % 2 = 0 then low ≤ q ∧ q ≤ high else low < q ∧ q < high

lemma Rounds.le {mantissa : Nat} {exponent : Int} {q : ℚ} (h : Rounds mantissa exponent q) :
    (roundingInterval mantissa exponent).1 * 2 ^ (exponent - 2) ≤ q ∧
      q ≤ (roundingInterval mantissa exponent).2 * 2 ^ (exponent - 2) := by
  unfold Rounds at h
  dsimp only at h
  split at h
  · exact h
  · exact ⟨h.1.le, h.2.le⟩

lemma Rounds.of_lt {mantissa : Nat} {exponent : Int} {q : ℚ}
    (hlow : (roundingInterval mantissa exponent).1 * 2 ^ (exponent - 2) < q)
    (hhigh : q < (roundingInterval mantissa exponent).2 * 2 ^ (exponent - 2)) :
    Rounds mantissa exponent q := by
  unfold Rounds
  dsimp only
  split
  · exact ⟨hlow.le, hhigh.le⟩
  · exact ⟨hlow, hhigh⟩

variable {mantissa : Nat} {exponent lead : Int}

/-- The lower end is two quarters below the double, or one at the least normal mantissa. -/
lemma roundingInterval_fst (exponent : Int) (hne : mantissa ≠ 0) :
    (roundingInterval mantissa exponent).1 + 2 = 4 * mantissa ∨
      (roundingInterval mantissa exponent).1 + 1 = 4 * mantissa ∧ mantissa = 2 ^ 52 := by
  unfold roundingInterval twoTo
  dsimp only [Nat.pow_eq]
  split
  · next h =>
    simp only [Bool.and_eq_true, beq_iff_eq] at h
    exact .inr ⟨by omega, h.1⟩
  · exact .inl (by omega)

/-- The lower end of a double above the least exponent, whose mantissa is a normal one. -/
lemma le_roundingInterval (hnormal : 2 ^ 52 ≤ mantissa) (hexponent : exponent ≠ -1074) :
    2 ^ 54 - 1 ≤ (roundingInterval mantissa exponent).1 := by
  unfold roundingInterval twoTo
  dsimp only [Nat.pow_eq]
  split
  · omega
  · next h =>
    have hne : mantissa ≠ 2 ^ 52 := by simpa [hexponent] using h
    omega

@[simp] lemma roundingInterval_snd :
    (roundingInterval mantissa exponent).2 = 4 * mantissa + 2 := rfl

/-- The quotient of a power of two and one of ten takes multiples of both to one scale. -/
lemma quotient_scale (exponent unit : Int) :
    ∃ c : ℚ, 0 < c ∧
      (∀ bound : Nat, ((bound * (Binary64.quotient 1 exponent (-unit)).1 : ℕ) : ℚ) =
        c * (bound * 2 ^ exponent)) ∧
      ∀ q : Nat, ((q * (Binary64.quotient 1 exponent (-unit)).2 : ℕ) : ℚ) =
        c * (q * 10 ^ unit) := by
  obtain ⟨hpos, hvalue⟩ := Binary64.quotient_spec 1 exponent (-unit)
  have hten : (10 : ℚ) ^ (-unit) * 10 ^ unit = 1 := by
    rw [← zpow_add₀ (by norm_num), neg_add_cancel, zpow_zero]
  refine ⟨(Binary64.quotient 1 exponent (-unit)).2 * 10 ^ (-unit), by positivity,
    fun bound => ?_, fun q => ?_⟩
  · push_cast
    rw [hvalue]
    push_cast
    ring
  · push_cast
    linear_combination -(q * (Binary64.quotient 1 exponent (-unit)).2 : ℚ) * hten

/-- Whether a multiple of a unit lies in the interval, in the arithmetic of quotients. -/
def hits (mantissa : Nat) (exponent unit : Int) (q : Nat) : Bool :=
  let interval := roundingInterval mantissa exponent
  let ratio := Binary64.quotient 1 (exponent - 2) (-unit)
  if mantissa % 2 == 0 then
    interval.1 * ratio.1 ≤ q * ratio.2 && q * ratio.2 ≤ interval.2 * ratio.1
  else interval.1 * ratio.1 < q * ratio.2 && q * ratio.2 < interval.2 * ratio.1

lemma hits_iff (unit : Int) (q : Nat) :
    hits mantissa exponent unit q = true ↔ Rounds mantissa exponent (q * 10 ^ unit) := by
  obtain ⟨c, hc, hbound, hq⟩ := quotient_scale (exponent - 2) unit
  unfold hits Rounds
  dsimp only
  simp only [beq_iff_eq]
  split
  · rw [Bool.and_eq_true, decide_eq_true_iff, decide_eq_true_iff, ← Nat.cast_le (α := ℚ),
      ← Nat.cast_le (α := ℚ), hbound, hbound, hq, mul_le_mul_iff_right₀ hc,
      mul_le_mul_iff_right₀ hc]
  · rw [Bool.and_eq_true, decide_eq_true_iff, decide_eq_true_iff, ← Nat.cast_lt (α := ℚ),
      ← Nat.cast_lt (α := ℚ), hbound, hbound, hq, mul_lt_mul_iff_right₀ hc,
      mul_lt_mul_iff_right₀ hc]

/-! ## The search -/

/-- Looking at one more digit finds a decimal in the interval, or goes on. -/
lemma shortestFrom_succ (mantissa : Nat) (exponent lead : Int) (fuel : Nat) :
    (∃ q unit, shortestFrom mantissa exponent lead (fuel + 1) = ⟨q, unit⟩ ∧
      hits mantissa exponent unit q = true) ∨
    shortestFrom mantissa exponent lead (fuel + 1) = shortestFrom mantissa exponent lead fuel := by
  rw [shortestFrom]
  generalize lead - (16 - Int.ofNat fuel) + 1 = unit
  dsimp only
  split
  · next hdown hup =>
    refine .inl ⟨_, unit, rfl, ?_⟩
    split
    · exact hdown
    split
    · exact hup
    · have hparity := Nat.mod_two_eq_zero_or_one
        (4 * mantissa * (Binary64.quotient 1 (exponent - 2) (-unit)).1 /
          (Binary64.quotient 1 (exponent - 2) (-unit)).2)
      rcases hparity with hparity | hparity <;> rw [hparity]
      · exact hdown
      · exact hup
  · next hdown _ => exact .inl ⟨_, unit, rfl, hdown⟩
  · next _ hup => exact .inl ⟨_, unit, rfl, hup⟩
  · exact .inr rfl

/-- Rounding to multiples of a unit is off by half of the unit at most. -/
lemma roundHalfEven_unit (mantissa : Nat) (exponent unit : Int) {q : Nat}
    (hq : Binary64.roundHalfEven (Binary64.quotient mantissa exponent (-unit)).1
      (Binary64.quotient mantissa exponent (-unit)).2 = q) :
    (2 * (mantissa * 2 ^ exponent) : ℚ) ≤ (2 * q + 1) * 10 ^ unit ∧
      (2 * q * 10 ^ unit : ℚ) ≤ 2 * (mantissa * 2 ^ exponent) + 10 ^ unit := by
  obtain ⟨hpos, hvalue⟩ := Binary64.quotient_spec mantissa exponent (-unit)
  obtain ⟨hlow, hhigh⟩ := Binary64.roundHalfEven_near
    (Binary64.quotient mantissa exponent (-unit)).1 hpos
  rw [hq] at hlow hhigh
  generalize Binary64.quotient mantissa exponent (-unit) = ratio at *
  have hu : (0 : ℚ) < 10 ^ unit := by positivity
  have hcancel : (10 : ℚ) ^ (-unit) * 10 ^ unit = 1 := by
    rw [← zpow_add₀ (by norm_num), neg_add_cancel, zpow_zero]
  have hden : (0 : ℚ) < ratio.2 := by exact_mod_cast hpos
  generalize (10 : ℚ) ^ (-unit) = v at *
  generalize (10 : ℚ) ^ unit = u at *
  generalize (mantissa : ℚ) * 2 ^ exponent = x at *
  constructor
  · have hle : (2 * ratio.1 : ℚ) ≤ (2 * q + 1) * ratio.2 := by exact_mod_cast hlow
    have hscaled : 2 * (x * v) ≤ 2 * q + 1 := by
      refine le_of_mul_le_mul_right ?_ hden
      linarith
    calc 2 * x = 2 * (x * v) * u := by linear_combination -(2 * x) * hcancel
      _ ≤ (2 * q + 1) * u := mul_le_mul_of_nonneg_right hscaled hu.le
  · have hle : (2 * q * ratio.2 : ℚ) ≤ 2 * ratio.1 + ratio.2 := by exact_mod_cast hhigh
    have hscaled : 2 * (q : ℚ) ≤ 2 * (x * v) + 1 := by
      refine le_of_mul_le_mul_right ?_ hden
      linarith
    calc 2 * q * u ≤ (2 * (x * v) + 1) * u := mul_le_mul_of_nonneg_right hscaled hu.le
      _ = 2 * x + u := by linear_combination (2 * x) * hcancel

/-- Seventeen digits are enough. -/
lemma rounds_seventeen (h : Canonical mantissa exponent) (hne : mantissa ≠ 0)
    (hlead : (10 : ℚ) ^ lead ≤ mantissa * 2 ^ exponent) :
    Rounds mantissa exponent (shortestFrom mantissa exponent lead 0).value := by
  rw [shortestFrom]
  dsimp only [Scientific.value]
  have hsmall : 10 ^ 16 * (10 : ℚ) ^ (lead - 16) ≤ mantissa * 2 ^ exponent := by
    refine le_trans (le_of_eq ?_) hlead
    rw [zpow_sub₀ (by norm_num)]
    exact mul_div_cancel₀ _ (by norm_num)
  obtain ⟨hbelow, habove⟩ := roundHalfEven_unit mantissa exponent (lead - 16) rfl
  generalize Binary64.roundHalfEven _ _ = q at *
  -- everything in quarters of a unit in the last place
  have hquarter : (2 : ℚ) ^ exponent = 4 * 2 ^ (exponent - 2) := by
    rw [zpow_sub₀ (by norm_num)]
    norm_num
    ring
  have hw : (0 : ℚ) < 2 ^ (exponent - 2) := by positivity
  rw [hquarter] at hsmall hbelow habove
  have hlt : (mantissa : ℚ) < 2 ^ 53 := by exact_mod_cast h.lt
  have hmw := mul_lt_mul_of_pos_right hlt hw
  refine Rounds.of_lt ?_ ?_
  · rcases roundingInterval_fst exponent hne with hfst | ⟨hfst, rfl⟩
    · have hfst' : ((roundingInterval mantissa exponent).1 : ℚ) = 4 * mantissa - 2 := by
        rw [eq_sub_iff_add_eq]
        exact_mod_cast hfst
      rw [hfst']
      linarith
    · have hfst' : ((roundingInterval (2 ^ 52) exponent).1 : ℚ) = 4 * 2 ^ 52 - 1 := by
        rw [eq_sub_iff_add_eq]
        exact_mod_cast hfst
      rw [hfst']
      push_cast at hsmall hbelow
      linarith
  · rw [roundingInterval_snd]
    push_cast
    linarith

/-- **The search ends in the interval.** -/
theorem rounds_shortestFrom (h : Canonical mantissa exponent) (hne : mantissa ≠ 0)
    (hlead : (10 : ℚ) ^ lead ≤ mantissa * 2 ^ exponent) (fuel : Nat) :
    Rounds mantissa exponent (shortestFrom mantissa exponent lead fuel).value := by
  induction fuel with
  | zero => exact rounds_seventeen h hne hlead
  | succ fuel ih =>
    rcases shortestFrom_succ mantissa exponent lead fuel with ⟨q, unit, hfound, hhits⟩ | hmore
    · rw [hfound]
      exact (hits_iff unit q).1 hhits
    · rw [hmore]
      exact ih

lemma value_dropZeros (fuel : Nat) (s : Scientific) : (s.dropZeros fuel).value = s.value := by
  induction fuel generalizing s with
  | zero => rfl
  | succ fuel ih =>
    unfold Scientific.dropZeros
    split
    · next hzero =>
      rw [ih]
      have hten : s.digits = s.digits / 10 * 10 := by
        simp only [Bool.and_eq_true, beq_iff_eq] at hzero
        omega
      have hcast : (s.digits : ℚ) = (s.digits / 10 : ℕ) * 10 := by exact_mod_cast hten
      simp only [Scientific.value]
      rw [hcast, zpow_add₀ (by norm_num)]
      ring
    · rfl

/-- **The shortest decimal of a double rounds to it.** -/
theorem rounds_shortest (h : Canonical mantissa exponent) (hne : mantissa ≠ 0) :
    Rounds mantissa exponent (shortest mantissa exponent).value := by
  have hlead := Binary64.leadingExponent_le hne h.least
  unfold shortest
  rw [if_neg (by simpa using hne), value_dropZeros]
  exact rounds_shortestFrom h hne hlead 16

/-- A number that rounds to a double above zero is above zero. -/
lemma Rounds.pos {q : ℚ} (h : Rounds mantissa exponent q) (hne : mantissa ≠ 0) : 0 < q := by
  have hfst := roundingInterval_fst exponent hne
  have hlow : (0 : ℚ) < (roundingInterval mantissa exponent).1 := by
    exact_mod_cast (by omega : 0 < (roundingInterval mantissa exponent).1)
  exact lt_of_lt_of_le (by positivity) h.le.1

/-- A number does not round to two doubles where one interval ends below the other, or where it does
not start above it and the double below is odd or the other one is. -/
lemma Rounds.apart {other : Nat} {power : Int} {q : ℚ} (hq : Rounds mantissa exponent q)
    (hq' : Rounds other power q)
    (hle : (4 * mantissa + 2 : ℚ) * 2 ^ (exponent - 2) ≤
      (roundingInterval other power).1 * 2 ^ (power - 2))
    (hlt : mantissa % 2 = 0 → other % 2 = 0 → (4 * mantissa + 2 : ℚ) * 2 ^ (exponent - 2) <
      (roundingInterval other power).1 * 2 ^ (power - 2)) : False := by
  have hhigh := hq.le.2
  have hlow := hq'.le.1
  rw [roundingInterval_snd] at hhigh
  push_cast at hhigh
  by_cases heven : mantissa % 2 = 0
  · by_cases heven' : other % 2 = 0
    · linarith [hlt heven heven']
    · unfold Rounds at hq'
      rw [if_neg heven'] at hq'
      linarith [hq'.1]
  · unfold Rounds at hq
    rw [if_neg heven, roundingInterval_snd] at hq
    push_cast at hq
    linarith [hq.2]

lemma Rounds.apart_same {other : Nat} {q : ℚ} (hq : Rounds mantissa exponent q)
    (hne : other ≠ 0) (hlt : mantissa < other) (hq' : Rounds other exponent q) : False := by
  have hw : (0 : ℚ) < 2 ^ (exponent - 2) := by positivity
  have hfst := roundingInterval_fst exponent hne
  refine hq.apart hq' ?_ fun heven heven' => ?_
  · refine mul_le_mul_of_nonneg_right ?_ hw.le
    exact_mod_cast (by omega : 4 * mantissa + 2 ≤ (roundingInterval other exponent).1)
  · refine mul_lt_mul_of_pos_right ?_ hw
    exact_mod_cast (by omega : 4 * mantissa + 2 < (roundingInterval other exponent).1)

lemma Rounds.apart_of_lt {other : Nat} {power : Int} {q : ℚ} (hq : Rounds mantissa exponent q)
    (h : Canonical mantissa exponent) (k : Canonical other power) (hlt : exponent < power)
    (hq' : Rounds other power q) : False := by
  have hpower : power ≠ -1074 := by
    have := h.least
    omega
  have hlow := le_roundingInterval (k.normal hpower) hpower
  have hm := h.lt
  have hw : (0 : ℚ) < 2 ^ (exponent - 2) := by positivity
  -- a greater exponent makes the units at least twice as large
  have htwice : 2 * (2 : ℚ) ^ (exponent - 2) ≤ 2 ^ (power - 2) := by
    calc 2 * (2 : ℚ) ^ (exponent - 2) = 2 ^ (exponent - 2 + 1) := by
          rw [zpow_add₀ (by norm_num), zpow_one]
          ring
      _ ≤ 2 ^ (power - 2) := zpow_le_zpow_right₀ (by norm_num) (by omega)
  have hends : ((roundingInterval other power).1 : ℚ) * (2 * 2 ^ (exponent - 2)) ≤
      (roundingInterval other power).1 * 2 ^ (power - 2) :=
    mul_le_mul_of_nonneg_left htwice (by positivity)
  refine hq.apart hq' (le_trans ?_ hends) fun heven _ => lt_of_lt_of_le ?_ hends
  · rw [← mul_assoc]
    refine mul_le_mul_of_nonneg_right ?_ hw.le
    exact_mod_cast (by omega : 4 * mantissa + 2 ≤ (roundingInterval other power).1 * 2)
  · rw [← mul_assoc]
    refine mul_lt_mul_of_pos_right ?_ hw
    exact_mod_cast (by omega : 4 * mantissa + 2 < (roundingInterval other power).1 * 2)

/-- **A number rounds to one double only.** -/
theorem Rounds.unique {other : Nat} {power : Int} {q : ℚ} (h : Canonical mantissa exponent)
    (k : Canonical other power) (hne : mantissa ≠ 0) (hne' : other ≠ 0)
    (hq : Rounds mantissa exponent q) (hq' : Rounds other power q) :
    mantissa = other ∧ exponent = power := by
  rcases lt_trichotomy exponent power with hlt | rfl | hlt
  · exact (hq.apart_of_lt h k hlt hq').elim
  · rcases lt_trichotomy mantissa other with hlt | rfl | hlt
    · exact (hq.apart_same hne' hlt hq').elim
    · exact ⟨rfl, rfl⟩
    · exact (hq'.apart_same hne hlt hq).elim
  · exact (hq'.apart_of_lt k h hlt hq).elim

end Decimal

end BracketTemplate
