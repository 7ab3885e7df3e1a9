import Mathlib
import BracketTemplate.Proofs.Table.Assignment

/-!
# Borders

The length of a table is a border: an index with a value whose successor has none, or `0` when the
first index has none (`Valid.length_border`).  A table can have several borders, and then its length
is any of them, as its layout has it.  A table whose keys are the numbers from `1` to `n` has one,
which is `n` (`Counts.length_eq`).

Up to a number there are gaps, where an index has no value, and besides these indices there are
strays, which are the other keys.  The number of keys tells only by how much the ones exceed the
others (`Valid.length_pairs`), and a table is a sequence when there are none of either
(`Valid.counts_iff`).
-/

namespace BracketTemplate.Script.Table

variable {t : Table} {n i j : Nat}

/-- An index with a value, or `0`, whose successor has no value or is beyond all indices. -/
structure IsBorder (t : Table) (n : Nat) : Prop where
  le : n ≤ maxIndex
  present : n = 0 ∨ t.absent n = false
  next : n = maxIndex ∨ t.absent (n + 1) = true

lemma maxIndex_eq : maxIndex = 2 ^ 63 - 1 := rfl

lemma absent_eq_true : t.absent i = true ↔ t.get (.ofNat i) = .nil := by
  unfold absent getInt
  cases t.get (.ofNat i) <;> simp [Val.isNil]

lemma absent_eq_false : t.absent i = false ↔ t.get (.ofNat i) ≠ .nil := by
  rw [← Bool.not_eq_true, not_iff_not]
  exact absent_eq_true

/-- Bisection ends at a border. -/
lemma bisect_border {fuel : Nat} (hi : i = 0 ∨ t.absent i = false) (hj : t.absent j = true)
    (hlt : i < j) (hmax : j ≤ maxIndex) (hfuel : j - i ≤ 2 ^ fuel) :
    t.IsBorder (t.bisect fuel i j) := by
  induction fuel generalizing i j with
  | zero =>
    have hnext : j = i + 1 := by
      rw [pow_zero] at hfuel
      omega
    exact ⟨by rw [bisect]; omega, hi, .inr (hnext ▸ hj)⟩
  | succ fuel ih =>
    rw [bisect]
    by_cases hclose : j ≤ i + 1
    · have hnext : j = i + 1 := by omega
      rw [if_pos hclose]
      exact ⟨by omega, hi, .inr (hnext ▸ hj)⟩
    · rw [if_neg hclose]
      rw [pow_succ] at hfuel
      dsimp only
      by_cases hmiddle : t.absent ((i + j) / 2) = true
      · rw [if_pos hmiddle]
        exact ih hi hmiddle (by omega) (by omega) (by omega)
      · rw [if_neg hmiddle]
        exact ih (.inr (by simpa using hmiddle)) hj (by omega) hmax (by omega)

/-- Going up from a present index ends at a border. -/
lemma searchUp_border {fuel : Nat} (hi : t.absent i = false) (hpos : 1 ≤ i) (hmax : i ≤ maxIndex)
    (hfuel : maxIndex < i * 2 ^ fuel) : t.IsBorder (t.searchUp fuel i) := by
  have hlimit : maxIndex ≤ 2 ^ 64 := by norm_num [maxIndex_eq]
  induction fuel generalizing i with
  | zero =>
    rw [pow_zero] at hfuel
    omega
  | succ fuel ih =>
    rw [searchUp]
    by_cases hdouble : i ≤ maxIndex / 2
    · rw [if_pos hdouble]
      by_cases habsent : t.absent (2 * i) = true
      · rw [if_pos habsent]
        exact bisect_border (.inr hi) habsent (by omega) (by omega) (by omega)
      · rw [if_neg habsent]
        refine ih (by simpa using habsent) (by omega) (by omega) ?_
        calc maxIndex < i * 2 ^ (fuel + 1) := hfuel
          _ = 2 * i * 2 ^ fuel := by ring
    · rw [if_neg hdouble]
      by_cases habsent : t.absent maxIndex = true
      · have hne : i ≠ maxIndex := by
          rintro rfl
          rw [habsent] at hi
          cases hi
        rw [if_pos habsent]
        exact bisect_border (.inr hi) habsent (by omega) le_rfl (by omega)
      · rw [if_neg habsent]
        exact ⟨le_rfl, .inr (by simpa using habsent), .inl rfl⟩

/-- **The length of a table is a border.** -/
theorem Valid.length_border (h : t.Valid) : t.IsBorder t.length := by
  have hsize : t.items.size ≤ maxIndex := by
    have hlt := h.size
    rw [maxIndex_eq]
    omega
  have hlimit : maxIndex ≤ 2 ^ 64 := by norm_num [maxIndex_eq]
  unfold length
  dsimp only
  by_cases hend : (0 < t.items.size && t.absent t.items.size) = true
  · rw [if_pos hend]
    obtain ⟨hpos, habsent⟩ : 0 < t.items.size ∧ t.absent t.items.size = true := by
      simpa using hend
    by_cases hlast : (2 ≤ t.items.size && !t.absent (t.items.size - 1)) = true
    · rw [if_pos hlast]
      obtain ⟨htwo, hpresent⟩ : 2 ≤ t.items.size ∧ t.absent (t.items.size - 1) = false := by
        simpa using hlast
      exact ⟨by omega, .inr hpresent, .inr (by rw [Nat.sub_add_cancel (by omega)]; exact habsent)⟩
    · rw [if_neg hlast]
      exact bisect_border (.inl rfl) habsent hpos hsize (by omega)
  · rw [if_neg hend]
    have hpresent : t.items.size = 0 ∨ t.absent t.items.size = false := by
      by_cases hpos : 0 < t.items.size
      · exact .inr (by simpa [hpos] using hend)
      · exact .inl (by omega)
    by_cases hnext : t.absent (t.items.size + 1) = true
    · rw [if_pos hnext]
      exact ⟨hsize, hpresent, .inr hnext⟩
    · rw [if_neg hnext]
      refine searchUp_border ?_ (by omega) ?_ ?_
      · rcases hpresent with hzero | hpresent
        · rw [hzero] at hnext ⊢
          simpa using hnext
        · by_cases hpos : t.items.size = 0
          · rw [hpos] at hnext ⊢
            simpa using hnext
          · rw [max_eq_left (by omega)]
            exact hpresent
      · have hone : 1 ≤ maxIndex := by norm_num [maxIndex_eq]
        omega
      · have hlt : maxIndex < 2 ^ 64 := by norm_num [maxIndex_eq]
        have hpos : 1 ≤ max t.items.size 1 := le_max_right _ _
        exact hlt.trans_le (Nat.le_mul_of_pos_left _ hpos)

/-! ## Sequences -/

/-- The keys are the integers from `1` to `n`. -/
structure Counts (t : Table) (n : Nat) : Prop where
  le : n ≤ maxIndex
  iff : ∀ k, k.IsKey → (t.get k ≠ .nil ↔ ∃ i, 1 ≤ i ∧ i ≤ n ∧ k = .ofNat i)

lemma Counts.absent_eq_false (h : t.Counts n) (hi : i ≤ maxIndex) :
    t.absent i = false ↔ 1 ≤ i ∧ i ≤ n := by
  have hmax : maxIndex < 2 ^ 63 := by norm_num [maxIndex_eq]
  have hle := h.le
  rw [Table.absent_eq_false, h.iff _ (Val.isKey_ofNat i)]
  constructor
  · rintro ⟨j, hpos, hj, heq⟩
    have hsame := (Val.ofNat_inj (by omega) (by omega)).1 heq
    omega
  · rintro ⟨hpos, hn⟩
    exact ⟨i, hpos, hn, rfl⟩

/-- **A sequence has one border**, its end. -/
theorem Counts.eq_of_border {m : Nat} (h : t.Counts n) (hborder : t.IsBorder m) : m = n := by
  have hle := h.le
  have hm := hborder.le
  have hupper : m ≤ n := by
    rcases hborder.present with hzero | hpresent
    · omega
    · exact ((h.absent_eq_false hm).1 hpresent).2
  have hlower : n ≤ m := by
    rcases hborder.next with hmax | habsent
    · omega
    · by_contra hlt
      have hpresent := (h.absent_eq_false (i := m + 1) (by omega)).2 (by omega)
      rw [habsent] at hpresent
      cases hpresent
  omega

/-- The length of a sequence is the number of its items. -/
theorem Counts.length_eq (h : t.Counts n) (ht : t.Valid) : t.length = n :=
  h.eq_of_border ht.length_border

/-! ## Gaps and strays -/

/-- Whether a key is an integer from `1` to `n`. -/
def isIndex (n : Nat) : Val → Bool
  | .int i => 1 ≤ i.toInt && i.toInt ≤ n
  | _ => false

/-- How many of the integers from `1` to `n` have no value. -/
def gaps (t : Table) (n : Nat) : Nat := (List.range n).countP fun i => t.absent (i + 1)

/-- How many keys are not among the integers from `1` to `n`. -/
def strays (t : Table) (n : Nat) : Nat := t.pairs.countP fun p => !isIndex n p.1

lemma isIndex_eq_true {k : Val} (hn : n ≤ maxIndex) :
    isIndex n k = true ↔ ∃ i, i < n ∧ k = .ofNat (i + 1) := by
  have hmax : maxIndex < 2 ^ 63 := by norm_num [maxIndex_eq]
  constructor
  · intro h
    cases k with
    | int j =>
      obtain ⟨hpos, hle⟩ : 1 ≤ j.toInt ∧ j.toInt ≤ n := by simpa [isIndex] using h
      have hint : (Int64.ofNat (j.toInt.toNat - 1 + 1)).toInt =
          ((j.toInt.toNat - 1 + 1 : Nat) : Int) := Int64.toInt_ofNat_of_lt (by omega)
      have hj : j = Int64.ofNat (j.toInt.toNat - 1 + 1) := Int64.toInt_inj.1 (by rw [hint]; omega)
      exact ⟨j.toInt.toNat - 1, by omega, congrArg Val.int hj⟩
    | _ => cases h
  · rintro ⟨i, hi, rfl⟩
    have hint : (Int64.ofNat (i + 1)).toInt = ((i + 1 : Nat) : Int) :=
      Int64.toInt_ofNat_of_lt (by omega)
    simp only [isIndex, Val.ofNat, hint]
    simpa using hi

/-- The keys among the integers from `1` to `n` are those without a gap. -/
lemma Valid.countP_isIndex (h : t.Valid) (hn : n ≤ maxIndex) :
    t.pairs.countP (fun p => isIndex n p.1) =
      (List.range n).countP fun i => !t.absent (i + 1) := by
  have hmax : maxIndex < 2 ^ 63 := by norm_num [maxIndex_eq]
  have hleft : ((t.pairs.filter fun p => isIndex n p.1).map (·.1)).Nodup :=
    h.nodup_pairs.sublist (List.filter_sublist.map _)
  have hright : (((List.range n).filter fun i => !t.absent (i + 1)).map
      fun i => Val.ofNat (i + 1)).Nodup := by
    refine List.Nodup.map_on ?_ (List.nodup_range.filter _)
    intro i hi j hj heq
    have hi := List.mem_range.1 (List.mem_filter.1 hi).1
    have hj := List.mem_range.1 (List.mem_filter.1 hj).1
    have hsame := (Val.ofNat_inj (by omega) (by omega)).1 heq
    omega
  have hperm : ((t.pairs.filter fun p => isIndex n p.1).map (·.1)).Perm
      (((List.range n).filter fun i => !t.absent (i + 1)).map fun i => Val.ofNat (i + 1)) := by
    refine (List.perm_ext_iff_of_nodup hleft hright).2 fun k => ?_
    simp only [List.mem_map, List.mem_filter, List.mem_range]
    constructor
    · rintro ⟨⟨k, v⟩, ⟨hpair, hindex⟩, rfl⟩
      obtain ⟨i, hi, heq⟩ := (isIndex_eq_true hn).1 hindex
      obtain ⟨hv, -, hget⟩ := h.mem_pairs.1 hpair
      have heq : k = .ofNat (i + 1) := heq
      subst heq
      have hpresent : t.absent (i + 1) = false := absent_eq_false.2 (by rw [hget]; exact hv)
      exact ⟨i, ⟨hi, by rw [hpresent]; rfl⟩, rfl⟩
    · rintro ⟨i, ⟨hi, hpresent⟩, rfl⟩
      have hpresent : t.absent (i + 1) = false := by simpa using hpresent
      exact ⟨(.ofNat (i + 1), t.get (.ofNat (i + 1))),
        ⟨h.mem_pairs.2 ⟨absent_eq_false.1 hpresent, Val.isKey_ofNat _, rfl⟩,
          (isIndex_eq_true hn).2 ⟨i, hi, rfl⟩⟩, rfl⟩
  have hlength := hperm.length_eq
  rw [List.length_map, List.length_map] at hlength
  rw [List.countP_eq_length_filter, List.countP_eq_length_filter, hlength]

/-- **Counting keys.**  There are as many keys as integers from `1` to `n`, less the gaps and with
the strays. -/
theorem Valid.length_pairs (h : t.Valid) (hn : n ≤ maxIndex) :
    t.pairs.length + t.gaps n = n + t.strays n := by
  have hkeys := List.length_eq_countP_add_countP (fun p : Val × Val => isIndex n p.1) (l := t.pairs)
  have hrange := List.length_eq_countP_add_countP (fun i => t.absent (i + 1)) (l := List.range n)
  have hstrays : t.pairs.countP (fun p => decide ¬isIndex n p.1 = true) = t.strays n :=
    List.countP_congr fun p _ => by simp
  have hpresent : (List.range n).countP (fun i => decide ¬t.absent (i + 1) = true) =
      (List.range n).countP fun i => !t.absent (i + 1) :=
    List.countP_congr fun i _ => by simp
  rw [hstrays, h.countP_isIndex hn] at hkeys
  rw [hpresent, List.length_range] at hrange
  have hgaps : t.gaps n = (List.range n).countP fun i => t.absent (i + 1) := rfl
  omega

/-- **A sequence has neither gaps nor strays.** -/
theorem Valid.counts_iff (h : t.Valid) (hn : n ≤ maxIndex) :
    t.Counts n ↔ t.gaps n = 0 ∧ t.strays n = 0 := by
  have hgaps : t.gaps n = 0 ↔ ∀ i < n, t.absent (i + 1) = false := by
    simp [gaps]
  have hstrays : t.strays n = 0 ↔ ∀ p ∈ t.pairs, isIndex n p.1 = true := by
    simp [strays]
  rw [hgaps, hstrays]
  constructor
  · intro hcounts
    constructor
    · intro i hi
      exact (hcounts.absent_eq_false (by omega)).2 (by omega)
    · rintro ⟨k, v⟩ hpair
      obtain ⟨hv, hk, hget⟩ := h.mem_pairs.1 hpair
      obtain ⟨i, hpos, hi, rfl⟩ := (hcounts.iff k hk).1 (by rw [hget]; exact hv)
      exact (isIndex_eq_true hn).2 ⟨i - 1, by omega, by rw [Nat.sub_add_cancel hpos]⟩
  · rintro ⟨hpresent, hindex⟩
    refine ⟨hn, fun k hk => ⟨fun hv => ?_, ?_⟩⟩
    · obtain ⟨i, hi, hkey⟩ := (isIndex_eq_true hn).1 (hindex _ (h.mem_pairs.2 ⟨hv, hk, rfl⟩))
      exact ⟨i + 1, by omega, by omega, hkey⟩
    · rintro ⟨i, hpos, hi, rfl⟩
      have habsent := hpresent (i - 1) (by omega)
      rw [Nat.sub_add_cancel hpos] at habsent
      exact Table.absent_eq_false.1 habsent

end BracketTemplate.Script.Table
