import Mathlib
import BracketTemplate.Proofs.Table.Assignment

/-!
# Where entries stand

A table makes room for a new key by moving entries about, or by laying all of them out anew with an
array of another size.  None of it shows: what is found under the other keys stays
(`Valid.writes_add?`, `Valid.resize_eq`), so writing under a key does what writing should
(`Valid.writes_set`).  And all tables are sound, since they are made sound and are changed by
writing and by layouts (`Made.valid`).
-/

namespace BracketTemplate.Script.Table

variable {t u : Table} {key k value v : Val} {capacity : Nat}

/-! ## Main positions -/

lemma spread_lt (hcapacity : capacity ≠ 0) (n : Nat) : spread capacity n < capacity := by
  have hdiv : ((capacity - 1) ||| 1) / 2 = (capacity - 1) / 2 := by
    rw [Nat.or_div_two]
    simp
  have hodd : ((capacity - 1) ||| 1) % 2 = 1 := by
    rw [Nat.or_mod_two_eq_one]
    simp
  have hlt := Nat.mod_lt n (show ((capacity - 1) ||| 1) > 0 by omega)
  unfold spread
  omega

lemma floatPosition_lt (hcapacity : capacity ≠ 0) (x : Float) :
    floatPosition capacity x < capacity := by
  have hzero : 0 < capacity := Nat.pos_of_ne_zero hcapacity
  unfold floatPosition
  split
  · split
    · exact hzero
    · exact spread_lt hcapacity _
  · exact hzero

/-- The main position of a key is one of the places. -/
lemma mainPosition_lt (hcapacity : capacity ≠ 0) (key : Val) :
    mainPosition capacity key < capacity := by
  have hzero : 0 < capacity := Nat.pos_of_ne_zero hcapacity
  cases key with
  | float x => exact floatPosition_lt hcapacity x
  | str s => exact Nat.mod_lt _ hzero
  | bool b =>
    cases b
    · exact hzero
    · exact Nat.mod_lt _ hzero
  | nil => exact hzero
  | builtin f => exact hzero
  | _ => exact spread_lt hcapacity _

/-! ## Free places -/

lemma taken_eq_false {entries : List Entry} {place : Nat} :
    taken entries place = false ↔ place ∉ entries.map (·.place) := by
  simp [taken]

lemma lastFree?_eq_some {entries : List Entry} {limit place : Nat}
    (h : lastFree? entries limit = some place) :
    place < limit ∧ place ∉ entries.map (·.place) := by
  induction limit with
  | zero => cases h
  | succ limit ih =>
    rw [lastFree?] at h
    split at h
    · obtain ⟨hlt, hfree⟩ := ih h
      exact ⟨by omega, hfree⟩
    · next htaken =>
      cases h
      exact ⟨by omega, taken_eq_false.1 (by simpa using htaken)⟩

/-- At most one entry stands at a place. -/
lemma Valid.length_filter_place (h : t.Valid) (place : Nat) :
    t.entries.length ≤ (t.entries.filter (·.place != place)).length + 1 := by
  have hcount : (t.entries.map (·.place)).count place ≤ 1 :=
    List.nodup_iff_count_le_one.1 h.places place
  have hsplit := List.length_eq_countP_add_countP (fun e : Entry => e.place == place)
    (l := t.entries)
  have hrest : t.entries.countP (fun e => decide ¬(e.place == place) = true) =
      (t.entries.filter (·.place != place)).length := by
    rw [List.countP_eq_length_filter]
    congr 1
    refine List.filter_congr fun e _ => ?_
    cases hsame : e.place == place <;> simp [bne, hsame]
  rw [List.count_eq_countP, List.countP_map] at hcount
  have hcount : t.entries.countP (fun e => e.place == place) ≤ 1 := hcount
  omega

/-! ## A new entry -/

/-- An entry whose key is new can be put before others that stand apart from it.  What stands in the
table apart from it are the same values. -/
lemma Valid.writes_entries (ht : t.Valid) (hk : key.IsKey) (harray : t.arrayIndex? key = none)
    {place free : Nat} {entries : List Entry}
    (hkeys : ∀ e ∈ entries, e.key.IsKey ∧ t.arrayIndex? e.key = none)
    (hdistinct : (entries.map (·.key)).Nodup) (hplaces : (entries.map (·.place)).Nodup)
    (hnew : ∀ e ∈ entries, e.key ≠ key) (happart : place ∉ entries.map (·.place))
    (hbelow : ∀ e ∈ entries, e.place < t.capacity + (entries.length + 1))
    (hplace : place < t.capacity + (entries.length + 1)) (hfree : free ≤ t.capacity)
    (hsame : ∀ k v, k ≠ key → v ≠ .nil →
      ((∃ e ∈ entries, e.key = k ∧ e.value = v) ↔ ∃ e ∈ t.entries, e.key = k ∧ e.value = v)) :
    Writes t { t with entries := ⟨key, value, place⟩ :: entries, free } key value := by
  have hu : Valid { t with entries := ⟨key, value, place⟩ :: entries, free } := by
    refine ⟨ht.size, ?_, ?_, ?_, ?_, hfree⟩
    · intro e he
      rcases List.mem_cons.1 he with rfl | he
      · exact ⟨hk, harray⟩
      · exact hkeys e he
    · rw [List.map_cons, List.nodup_cons]
      refine ⟨fun hmem => ?_, hdistinct⟩
      obtain ⟨e, he, heq⟩ := List.mem_map.1 hmem
      exact hnew e he heq
    · rw [List.map_cons, List.nodup_cons]
      exact ⟨happart, hplaces⟩
    · intro e he
      rw [List.length_cons]
      rcases List.mem_cons.1 he with rfl | he
      · exact hplace
      · exact hbelow e he
  refine writes_of_holds ht hu (hu.get_entry List.mem_cons_self) ?_ rfl
  intro k v hne hv
  constructor
  · intro h
    cases h with
    | item h => exact .item (t := t) h
    | @entry e he =>
      rcases List.mem_cons.1 he with rfl | he
      · exact absurd rfl hne
      · obtain ⟨f, hf, hkey, hvalue⟩ := (hsame _ _ hne hv).1 ⟨e, he, rfl, rfl⟩
        rw [← hkey, ← hvalue]
        exact .entry hf
  · intro h
    cases h with
    | item h => exact .item (t := { t with entries := ⟨key, value, place⟩ :: entries, free }) h
    | @entry e he =>
      obtain ⟨f, hf, hkey, hvalue⟩ := (hsame _ _ hne hv).2 ⟨e, he, rfl, rfl⟩
      rw [← hkey, ← hvalue]
      exact .entry (t := { t with entries := ⟨key, value, place⟩ :: entries, free })
        (List.mem_cons_of_mem _ hf)

/-- All entries stay where they are when the new one goes to a place where none is. -/
lemma Valid.writes_cons (ht : t.Valid) (hk : key.IsKey) (harray : t.arrayIndex? key = none)
    (hnew : ∀ e ∈ t.entries, e.key ≠ key) {place free : Nat}
    (happart : place ∉ t.entries.map (·.place))
    (hplace : place < t.capacity + (t.entries.length + 1)) (hfree : free ≤ t.capacity) :
    Writes t { t with entries := ⟨key, value, place⟩ :: t.entries, free } key value := by
  refine ht.writes_entries hk harray ht.keys ht.distinct ht.places hnew happart ?_ hplace hfree
    fun k v _ _ => Iff.rfl
  intro e he
  have hlt := ht.below e he
  omega

/-- An entry without a value is given up for a new one. -/
lemma Valid.writes_over (ht : t.Valid) (hk : key.IsKey) (harray : t.arrayIndex? key = none)
    (hnew : ∀ e ∈ t.entries, e.key ≠ key) {other : Entry} (hother : other ∈ t.entries)
    (hdead : other.value = .nil) :
    Writes t { t with
      entries := ⟨key, value, other.place⟩ :: t.entries.filter (·.place != other.place) }
      key value := by
  have hsub : (t.entries.filter (·.place != other.place)).Sublist t.entries := List.filter_sublist
  have hlength := ht.length_filter_place other.place
  refine ht.writes_entries hk harray (fun e he => ht.keys e (hsub.subset he))
    (ht.distinct.sublist (hsub.map _)) (ht.places.sublist (hsub.map _))
    (fun e he => hnew e (hsub.subset he)) ?_ ?_ ?_ ht.free ?_
  · intro hmem
    obtain ⟨e, he, heq⟩ := List.mem_map.1 hmem
    have hne : e.place ≠ other.place := by simpa using (List.mem_filter.1 he).2
    exact hne heq
  · intro e he
    have hlt := ht.below e (hsub.subset he)
    omega
  · have hlt := ht.below other hother
    omega
  · intro k v _ hv
    constructor
    · rintro ⟨e, he, hkey, hvalue⟩
      exact ⟨e, hsub.subset he, hkey, hvalue⟩
    · rintro ⟨e, he, hkey, hvalue⟩
      refine ⟨e, List.mem_filter.2 ⟨he, ?_⟩, hkey, hvalue⟩
      -- the entry that is given up has no value
      have hne : e.place ≠ other.place := by
        intro heq
        have hsame : e = other := List.inj_on_of_nodup_map ht.places he hother heq
        rw [hsame, hdead] at hvalue
        exact hv hvalue.symm
      simpa using hne

/-- An entry moved from a place to another one. -/
def moved (source target : Nat) (e : Entry) : Entry :=
  if e.place == source then { e with place := target } else e

@[simp] lemma key_moved (source target : Nat) (e : Entry) :
    (moved source target e).key = e.key := by
  unfold moved
  split <;> rfl

@[simp] lemma value_moved (source target : Nat) (e : Entry) :
    (moved source target e).value = e.value := by
  unfold moved
  split <;> rfl

lemma place_moved (source target : Nat) (e : Entry) :
    (moved source target e).place = if e.place = source then target else e.place := by
  unfold moved
  by_cases h : e.place = source <;> simp [h]

/-- An entry makes room for a new one and goes to a free place. -/
lemma Valid.writes_move (ht : t.Valid) (hk : key.IsKey) (harray : t.arrayIndex? key = none)
    (hnew : ∀ e ∈ t.entries, e.key ≠ key) {main free : Nat} (hmain : main < t.capacity)
    (hfree : free ∉ t.entries.map (·.place)) (hlt : free < t.free) (hne : free ≠ main) :
    Writes t { t with entries := ⟨key, value, main⟩ :: t.entries.map (moved main free), free }
      key value := by
  have hcapacity := ht.free
  refine ht.writes_entries hk harray ?_ ?_ ?_ ?_ ?_ ?_ ?_ (by omega) ?_
  · intro e he
    obtain ⟨f, hf, rfl⟩ := List.mem_map.1 he
    rw [key_moved]
    exact ht.keys f hf
  · rw [List.map_map]
    have hkeys : (fun e : Entry => e.key) ∘ moved main free = fun e => e.key :=
      funext (key_moved main free)
    rw [hkeys]
    exact ht.distinct
  · -- the place that is gone to was free
    rw [List.map_map]
    refine List.Nodup.map_on ?_ (List.Nodup.of_map _ ht.places)
    intro e he f hf heq
    simp only [Function.comp_apply, place_moved] at heq
    have hnot : ∀ g ∈ t.entries, g.place ≠ free := fun g hg hplace =>
      hfree (hplace ▸ List.mem_map_of_mem hg)
    have hplace : e.place = f.place := by
      split at heq <;> split at heq
      · omega
      · exact absurd heq.symm (hnot f hf)
      · exact absurd heq (hnot e he)
      · exact heq
    exact List.inj_on_of_nodup_map ht.places he hf hplace
  · intro e he
    obtain ⟨f, hf, rfl⟩ := List.mem_map.1 he
    rw [key_moved]
    exact hnew f hf
  · intro hmem
    obtain ⟨e, he, heq⟩ := List.mem_map.1 hmem
    obtain ⟨f, hf, rfl⟩ := List.mem_map.1 he
    rw [place_moved] at heq
    split at heq
    · exact hne heq
    · next hother => exact hother heq
  · intro e he
    obtain ⟨f, hf, rfl⟩ := List.mem_map.1 he
    rw [place_moved, List.length_map]
    have hbelow := ht.below f hf
    split <;> omega
  · omega
  · intro k v _ _
    constructor
    · rintro ⟨e, he, hkey, hvalue⟩
      obtain ⟨f, hf, rfl⟩ := List.mem_map.1 he
      rw [key_moved] at hkey
      rw [value_moved] at hvalue
      exact ⟨f, hf, hkey, hvalue⟩
    · rintro ⟨f, hf, hkey, hvalue⟩
      exact ⟨moved main free f, List.mem_map_of_mem hf, by rw [key_moved, hkey],
        by rw [value_moved, hvalue]⟩

/-- **A new entry changes what is found under its key only.** -/
theorem Valid.writes_add? (ht : t.Valid) (hk : key.IsKey) (harray : t.arrayIndex? key = none)
    (hnew : ∀ e ∈ t.entries, e.key ≠ key) (h : t.add? key value = some u) :
    Writes t u key value := by
  unfold add? at h
  by_cases hcapacity : t.capacity = 0
  · rw [hcapacity] at h
    cases h
  have hmain := mainPosition_lt hcapacity key
  have hsome : (t.capacity == 0) = false := by simpa using hcapacity
  rw [hsome] at h
  cases hfound : t.entries.find? (·.place == mainPosition t.capacity key) with
  | none =>
    -- the main position is free
    simp only [hfound, Bool.false_eq_true, if_false] at h
    cases h
    refine ht.writes_cons hk harray hnew ?_ (by omega) ht.free
    intro hmem
    obtain ⟨e, he, heq⟩ := List.mem_map.1 hmem
    have hno := List.find?_eq_none.1 hfound e he
    exact hno (by simpa using heq)
  | some other =>
    have hother : other ∈ t.entries := List.mem_of_find?_eq_some hfound
    have hplace : other.place = mainPosition t.capacity key := by
      simpa using
        List.find?_some (p := fun e : Entry => e.place == mainPosition t.capacity key) hfound
    simp only [hfound, Bool.false_eq_true, if_false] at h
    split at h
    · next hdead =>
      cases h
      rw [← hplace]
      have hnil : other.value = .nil := by
        cases hvalue : other.value <;> simp_all [Val.isNil]
      exact ht.writes_over hk harray hnew hother hnil
    · split at h
      · cases h
      · next free hlast =>
        obtain ⟨hlt, hfree⟩ := lastFree?_eq_some hlast
        have hbound := ht.free
        split at h
        · cases h
          exact ht.writes_cons hk harray hnew hfree (by omega) (by omega)
        · cases h
          refine ht.writes_move hk harray hnew hmain hfree hlt ?_
          rintro rfl
          exact hfree (hplace ▸ List.mem_map_of_mem hother)

/-- **Placing writes**: where there is room, in a new entry, or behind all others. -/
theorem Valid.writes_place (ht : t.Valid) (hk : key.IsKey) (value : Val) :
    Writes t (t.place key value) key value := by
  unfold place
  cases hreplace : t.replace? key value with
  | some u => exact ht.writes_replace? hk hreplace
  | none =>
    obtain ⟨harray, hnew⟩ := ht.absent_of_replace? hreplace
    cases hadd : t.add? key value with
    | some u => exact ht.writes_add? hk harray hnew hadd
    | none =>
      refine ht.writes_cons hk harray hnew ?_ (by omega) ht.free
      intro hmem
      obtain ⟨e, he, heq⟩ := List.mem_map.1 hmem
      have hlt := ht.below e he
      omega

/-! ## A new layout -/

/-- Writing values under different keys, one after the other, writes each of them. -/
lemma writes_foldl {write : Table → Val → Val → Table}
    (hwrite : ∀ t key value, t.Valid → key.IsKey → Writes t (write t key value) key value)
    {pairs : List (Val × Val)} (hkeys : ∀ p ∈ pairs, p.1.IsKey) (hnodup : (pairs.map (·.1)).Nodup)
    (ht : t.Valid) (hu : pairs.foldl (fun t p => write t p.1 p.2) t = u) :
    u.Valid ∧ (∀ p ∈ pairs, u.get p.1 = p.2) ∧
      (∀ k, k.IsKey → k ∉ pairs.map (·.1) → u.get k = t.get k) ∧ u.metatable = t.metatable := by
  induction pairs generalizing t with
  | nil =>
    subst hu
    exact ⟨ht, by simp, fun _ _ _ => rfl, rfl⟩
  | cons pair rest ih =>
    have hkey := hkeys pair List.mem_cons_self
    have hfirst := hwrite t pair.1 pair.2 ht hkey
    rw [List.map_cons, List.nodup_cons] at hnodup
    obtain ⟨hnew, hnodup⟩ := hnodup
    obtain ⟨hvalid, hrest, hother, hmeta⟩ :=
      ih (fun p hp => hkeys p (List.mem_cons_of_mem _ hp)) hnodup hfirst.valid hu
    refine ⟨hvalid, ?_, ?_, hmeta.trans hfirst.metatable_eq⟩
    · intro p hp
      rcases List.mem_cons.1 hp with rfl | hp
      · rw [hother _ hkey hnew, hfirst.get_key]
      · exact hrest p hp
    · intro k hk hnot
      rw [List.map_cons, List.mem_cons, not_or] at hnot
      rw [hother k hk hnot.2, hfirst.get_other k hk hnot.1]

/-- The array of a table with another size. -/
def resized (t : Table) (size : Nat) : Array Val :=
  (t.items.toList.take size ++ List.replicate (size - t.items.size) Val.nil).toArray

lemma size_resized (t : Table) (size : Nat) : (t.resized size).size = size := by
  simp [resized]
  omega

/-- What is in the resized array was there before. -/
lemma resized_eq_some {size i : Nat} (hv : v ≠ .nil) :
    (t.resized size)[i]? = some v ↔ i < size ∧ t.items[i]? = some v := by
  rw [resized, List.getElem?_toArray, List.getElem?_append]
  by_cases hi : i < (t.items.toList.take size).length
  · have hlt : i < size ∧ i < t.items.size := by simpa using hi
    rw [if_pos hi, List.getElem?_take_of_lt hlt.1, Array.getElem?_toList]
    simp [hlt.1]
  · have hge : size ≤ i ∨ t.items.size ≤ i := by
      have hle : min size t.items.size ≤ i := by
        rw [List.length_take, Array.length_toList] at hi
        omega
      omega
    rw [if_neg hi]
    constructor
    · intro h
      have hnil : v = .nil := List.eq_of_mem_replicate (List.mem_of_getElem? h)
      exact absurd hnil hv
    · rintro ⟨hlt, hitem⟩
      obtain ⟨hsize, -⟩ := Array.getElem?_eq_some_iff.1 hitem
      omega

/-- The keys and values that a new layout has to place. -/
def leftover (t : Table) (size : Nat) : List (Val × Val) :=
  (t.itemPairs.drop size ++ t.ordered.map fun e => (e.key, e.value)).filter fun p => !p.2.isNil

lemma leftover_sublist (t : Table) (size : Nat) : (t.leftover size).Sublist t.pairs :=
  ((List.drop_sublist size _).append_right _).filter _

/-- What stands behind the resized array is left over. -/
lemma Holds.resized {size : Nat} (h : t.Holds k v) (hv : v ≠ .nil)
    (hnot : k ∉ (t.leftover size).map (·.1)) :
    ∃ i, i < size ∧ t.items[i]? = some v ∧ k = .ofNat (i + 1) := by
  have hkept : ∀ pair ∈ t.itemPairs.drop size ++ t.ordered.map fun e => (e.key, e.value),
      pair.2 ≠ .nil → pair.1 ≠ k := by
    intro pair hpair hvalue heq
    refine hnot (heq ▸ List.mem_map_of_mem (List.mem_filter.2 ⟨hpair, ?_⟩))
    cases hnil : pair.2 <;> simp_all [Val.isNil]
  cases h with
  | @item i v hitem =>
    by_cases hi : i < size
    · exact ⟨i, hi, hitem, rfl⟩
    · have hget : (t.itemPairs.drop size)[i - size]? = some (.ofNat (i + 1), v) := by
        rw [List.getElem?_drop, Nat.add_sub_cancel' (by omega), itemPairs, List.getElem?_mapIdx,
          Array.getElem?_toList, hitem]
        rfl
      have hmem := List.mem_of_getElem? hget
      exact absurd rfl (hkept _ (List.mem_append_left _ hmem) hv)
  | @entry e he =>
    have hmem := List.mem_map_of_mem (f := fun e : Entry => (e.key, e.value))
      (t.ordered_perm.mem_iff.2 he)
    exact absurd rfl (hkept _ (List.mem_append_right _ hmem) hv)

/-- **A new layout does not show.** -/
theorem Valid.resize_eq (ht : t.Valid) {size : Nat} (hsize : size < 2 ^ 63) (count : Nat) :
    (t.resize size count).Valid ∧ (∀ k, k.IsKey → (t.resize size count).get k = t.get k) ∧
      (t.resize size count).metatable = t.metatable := by
  have hstart : Valid { t with
      items := t.resized size, entries := [], capacity := ceilPowerOfTwo count,
      free := ceilPowerOfTwo count } := by
    refine ⟨?_, by simp, by simp, by simp, by simp, le_rfl⟩
    rw [size_resized]
    exact hsize
  have hsub := t.leftover_sublist size
  obtain ⟨hvalid, hplaced, hother, hmeta⟩ := writes_foldl
    (fun t key value ht hk => ht.writes_place hk value)
    (fun p hp => (ht.mem_pairs.1 (hsub.subset hp)).2.1)
    (ht.nodup_pairs.sublist (hsub.map _)) hstart (u := t.resize size count) rfl
  refine ⟨hvalid, ?_, hmeta⟩
  intro k hk
  by_cases hleft : k ∈ (t.leftover size).map (·.1)
  · obtain ⟨pair, hpair, rfl⟩ := List.mem_map.1 hleft
    rw [hplaced pair hpair]
    exact (ht.mem_pairs.1 (hsub.subset hpair)).2.2.symm
  · rw [hother k hk hleft]
    refine ht.get_congr hstart hk fun v hv => ?_
    constructor
    · intro h
      cases h with
      | item h => exact .item ((resized_eq_some hv).1 h).2
      | entry h => cases h
    · intro h
      obtain ⟨i, hi, hitem, rfl⟩ := h.resized hv hleft
      exact .item ((resized_eq_some hv).2 ⟨hi, hitem⟩)

/-- The array that suits some keys has fewer than `2 ^ 63` indices. -/
lemma arraySize_lt (counts : Nat → Nat) (total : Nat) {fuel k below : Nat} {best : Nat × Nat}
    (hbest : best.1 < 2 ^ 63) (hk : k + fuel ≤ 63) :
    (arraySize counts total fuel k below best).1 < 2 ^ 63 := by
  induction fuel generalizing k below best with
  | zero => exact hbest
  | succ fuel ih =>
    rw [arraySize]
    split
    · exact hbest
    · refine ih ?_ (by omega)
      split
      · exact Nat.pow_lt_pow_right (by omega) (by omega)
      · exact hbest

lemma rehash_eq (t : Table) (key : Val) :
    ∃ size count, size < 2 ^ 63 ∧ t.rehash key = t.resize size count := by
  unfold rehash
  dsimp only
  exact ⟨_, _, arraySize_lt _ _ (by norm_num) (by norm_num), rfl⟩

/-- **Writing under a key** changes what is found under it, and under no other key. -/
theorem Valid.writes_set (ht : t.Valid) (hnil : key ≠ .nil) (hnan : key ≠ .float Float.nan)
    (value : Val) : Writes t (t.set key value) key.toKey value := by
  have hk := Val.isKey_toKey hnil hnan
  unfold set
  dsimp only
  cases hreplace : t.replace? key.toKey value with
  | some u => exact ht.writes_replace? hk hreplace
  | none =>
    obtain ⟨harray, hnew⟩ := ht.absent_of_replace? hreplace
    dsimp only
    by_cases hvalue : value.isNil = true
    · -- there is nothing under the key, and so it stays
      rw [if_pos hvalue]
      have hvalue : value = .nil := by
        cases value <;> simp_all [Val.isNil]
      refine ⟨ht, ?_, fun _ _ _ => rfl, rfl⟩
      rw [hvalue]
      by_contra hget
      have hholds := (ht.get_eq_iff hk hget).1 rfl
      generalize t.get key.toKey = v at hholds
      generalize key.toKey = k at hholds harray hnew
      cases hholds with
      | @item i v hitem =>
        obtain ⟨hi, -⟩ := Array.getElem?_eq_some_iff.1 hitem
        rw [(arrayIndex?_eq_some ht.size).2 ⟨hi, rfl⟩] at harray
        cases harray
      | entry he => exact hnew _ he rfl
    · rw [if_neg hvalue]
      cases hadd : t.add? key.toKey value with
      | some u => exact ht.writes_add? hk harray hnew hadd
      | none =>
        obtain ⟨size, count, hsize, hrehash⟩ := t.rehash_eq key.toKey
        obtain ⟨hvalid, hsame, hmeta⟩ := ht.resize_eq hsize count
        rw [← hrehash] at hvalid hsame hmeta
        have hplace := hvalid.writes_place hk value
        exact ⟨hplace.valid, hplace.get_key,
          fun k hk hne => (hplace.get_other k hk hne).trans (hsame k hk),
          hplace.metatable_eq.trans hmeta⟩

/-! ## Tables as they are made -/

lemma valid_ofList {vs : List Val} (hlength : vs.length < 2 ^ 63) : (ofList vs).Valid :=
  ⟨hlength, by simp [ofList], by simp [ofList], by simp [ofList], by simp [ofList], le_rfl⟩

lemma valid_default : (default : Table).Valid :=
  valid_ofList (show ([] : List Val).length < 2 ^ 63 by norm_num)

lemma get_default (hk : k.IsKey) : (default : Table).get k = .nil := by
  by_contra hne
  have hholds : (ofList []).Holds k ((default : Table).get k) :=
    (valid_default.get_eq_iff hk hne).1 rfl
  generalize (default : Table).get k = v at hholds
  cases hholds with
  | item h => simp [ofList] at h
  | entry h => cases h

/-- A table with room for values has none. -/
lemma valid_withRoom {size : Nat} (hsize : size < 2 ^ 63) (count : Nat) :
    (withRoom size count).Valid ∧ ∀ k, k.IsKey → (withRoom size count).get k = .nil := by
  obtain ⟨hvalid, hget, -⟩ := valid_default.resize_eq hsize count
  exact ⟨hvalid, fun k hk => (hget k hk).trans (get_default hk)⟩

/-- A table with fields of different names. -/
lemma valid_ofFields {fields : List (String × Val)}
    (hnames : (fields.map fun f => Val.ofString f.1).Nodup) : (ofFields fields).Valid := by
  have hkeys : (ofFields fields).entries.map (·.key) = fields.map fun f => Val.ofString f.1 := by
    apply List.ext_getElem
    · simp [ofFields]
    · intro i hi hi'
      simp [ofFields]
  have hplaces : (ofFields fields).entries.map (·.place) = List.range fields.length := by
    apply List.ext_getElem
    · simp [ofFields]
    · intro i hi hi'
      simp [ofFields]
  refine ⟨by simp [ofFields], ?_, hkeys ▸ hnames, hplaces ▸ List.nodup_range, ?_, Nat.zero_le _⟩
  · intro e he
    have hmem : e.key ∈ fields.map fun f => Val.ofString f.1 := hkeys ▸ List.mem_map_of_mem he
    obtain ⟨f, -, hname⟩ := List.mem_map.1 hmem
    rw [← hname]
    exact ⟨Val.isKey_ofString _, rfl⟩
  · intro e he
    have hmem : e.place ∈ List.range fields.length := hplaces ▸ List.mem_map_of_mem he
    have hlength : (ofFields fields).entries.length = fields.length := by simp [ofFields]
    rw [hlength]
    have hlt := List.mem_range.1 hmem
    omega

/-- The tables that there are: they are made with room for values, from values or from fields, and
are laid out, written to and given metatables. -/
inductive Made : Table → Prop
  | withRoom {size count : Nat} (hsize : size < 2 ^ 63) : Made (withRoom size count)
  | ofList {vs : List Val} (hlength : vs.length < 2 ^ 63) : Made (ofList vs)
  | ofFields {fields : List (String × Val)}
      (hnames : (fields.map fun f => Val.ofString f.1).Nodup) : Made (ofFields fields)
  | resize {t : Table} (h : Made t) {size count : Nat} (hsize : size < 2 ^ 63) :
      Made (t.resize size count)
  | set {t : Table} (h : Made t) {key value : Val} (hnil : key ≠ .nil)
      (hnan : key ≠ .float Float.nan) : Made (t.set key value)
  | withMetatable {t : Table} (h : Made t) (metatable : Option Nat) : Made { t with metatable }

/-- **All tables are sound.** -/
theorem Made.valid (h : t.Made) : t.Valid := by
  induction h with
  | withRoom hsize => exact (valid_withRoom hsize _).1
  | ofList hlength => exact valid_ofList hlength
  | ofFields hnames => exact valid_ofFields hnames
  | resize _ hsize ih => exact (ih.resize_eq hsize _).1
  | set _ hnil hnan ih => exact (ih.writes_set hnil hnan _).valid
  | withMetatable _ metatable ih =>
    exact ⟨ih.size, ih.keys, ih.distinct, ih.places, ih.below, ih.free⟩

end BracketTemplate.Script.Table
