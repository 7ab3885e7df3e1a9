import Mathlib
import BracketTemplate.Proofs.Table.Key

/-!
# What is in a table

A table that is sound (`Table.Valid`) has every key once: its entries have different keys, none of
which the array is there for, and stand at different places.  Then what is found under a key is what
stands there (`Valid.get_eq_iff`), and a traversal meets every key that has a value, and no key
twice (`Valid.mem_pairs`, `Valid.nodup_pairs`).

Writing under a key keeps a table sound, and changes what is found under that key only (`Writes`).
However the entries have to be moved for it, a new entry never takes the place of another one that
has a value: only an entry without a value is given up.
-/

namespace BracketTemplate.Script

namespace Entry

/-- An entry with another value, if it is that of the key. -/
def revised (key value : Val) (e : Entry) : Entry :=
  if e.key.sameKey key then { e with value } else e

variable (key value : Val)

@[simp] lemma key_revised (e : Entry) : (e.revised key value).key = e.key := by
  unfold revised
  split <;> rfl

@[simp] lemma place_revised (e : Entry) : (e.revised key value).place = e.place := by
  unfold revised
  split <;> rfl

lemma keys_revised (entries : List Entry) :
    (entries.map (revised key value)).map (·.key) = entries.map (·.key) := by
  simp

lemma places_revised (entries : List Entry) :
    (entries.map (revised key value)).map (·.place) = entries.map (·.place) := by
  simp

end Entry

namespace Table

/-- Every key is there once, and every entry has a place of its own. -/
structure Valid (t : Table) : Prop where
  /-- The indices of the array are integers of 64 bits. -/
  size : t.items.size < 2 ^ 63
  keys : ∀ e ∈ t.entries, e.key.IsKey ∧ t.arrayIndex? e.key = none
  distinct : (t.entries.map (·.key)).Nodup
  places : (t.entries.map (·.place)).Nodup
  /-- The place behind all others is free. -/
  below : ∀ e ∈ t.entries, e.place < t.capacity + t.entries.length
  free : t.free ≤ t.capacity

variable {t u : Table} {key k value v : Val} {e : Entry} {i : Nat}

/-! ## The array -/

lemma arrayIndex?_ofNat (t : Table) (hi : i < 2 ^ 63) :
    t.arrayIndex? (.ofNat i) = if 1 ≤ i ∧ i ≤ t.items.size then some (i - 1) else none := by
  have hint : (Int64.ofNat i).toInt = i := Int64.toInt_ofNat_of_lt hi
  simp only [arrayIndex?, Val.ofNat, hint]
  by_cases hrange : 1 ≤ i ∧ i ≤ t.items.size
  · rw [if_pos hrange, if_pos (by simp; omega)]
    simp
  · rw [if_neg hrange, if_neg (by simp; omega)]

/-- The array is there for the first natural numbers. -/
lemma arrayIndex?_eq_some (hsize : t.items.size < 2 ^ 63) :
    t.arrayIndex? key = some i ↔ i < t.items.size ∧ key = .ofNat (i + 1) := by
  constructor
  · intro h
    cases key with
    | int j =>
      simp only [arrayIndex?] at h
      split at h
      · next hrange =>
        have hrange : 1 ≤ j.toInt ∧ j.toInt ≤ t.items.size := by simpa using hrange
        have hi : i = j.toInt.toNat - 1 := by simpa using h.symm
        have hint : (Int64.ofNat (i + 1)).toInt = ((i + 1 : Nat) : Int) :=
          Int64.toInt_ofNat_of_lt (by omega)
        refine ⟨by omega, ?_⟩
        have hj : j = Int64.ofNat (i + 1) := Int64.toInt_inj.1 (by rw [hint]; omega)
        rw [hj]
        rfl
      · cases h
    | _ => cases h
  · rintro ⟨hi, rfl⟩
    rw [arrayIndex?_ofNat t (by omega), if_pos (by omega)]
    rfl

lemma arrayIndex?_congr (hsize : u.items.size = t.items.size) (key : Val) :
    u.arrayIndex? key = t.arrayIndex? key := by
  cases key <;> simp only [arrayIndex?, hsize]

/-! ## What stands under a key -/

/-- What stands under a key, in the array or in an entry. -/
inductive Holds (t : Table) : Val → Val → Prop
  | item {i : Nat} {v : Val} (h : t.items[i]? = some v) : Holds t (.ofNat (i + 1)) v
  | entry {e : Entry} (h : e ∈ t.entries) : Holds t e.key e.value

lemma get_of_isKey (hk : key.IsKey) :
    t.get key = match t.arrayIndex? key with
      | some i => t.items[i]?.getD .nil
      | none => match t.entry? key with
        | some e => e.value
        | none => .nil := by
  change (match t.arrayIndex? key.toKey with
    | some i => t.items[i]?.getD .nil
    | none => match t.entry? key.toKey with
      | some e => e.value
      | none => .nil) = _
  rw [hk.2.2]

lemma get_item (hsize : t.items.size < 2 ^ 63) (h : t.items[i]? = some v) :
    t.get (.ofNat (i + 1)) = v := by
  obtain ⟨hi, -⟩ := Array.getElem?_eq_some_iff.1 h
  rw [get_of_isKey (Val.isKey_ofNat _), (arrayIndex?_eq_some hsize).2 ⟨hi, rfl⟩]
  simp only [h, Option.getD_some]

/-- An entry that is found for a key bears it. -/
lemma Valid.entry?_found (h : t.Valid) (hk : key.IsKey) (hfound : t.entry? key = some e) :
    e ∈ t.entries ∧ e.key = key := by
  have hmem : e ∈ t.entries := List.mem_of_find?_eq_some hfound
  have htest := List.find?_some (p := fun e : Entry => e.key.sameKey key) hfound
  exact ⟨hmem, (Val.sameKey_iff (h.keys e hmem).1 hk).1 htest⟩

/-- The entry of a key is the one that bears it. -/
lemma Valid.entry?_eq (h : t.Valid) (he : e ∈ t.entries) : t.entry? e.key = some e := by
  have hkey := (h.keys e he).1
  cases hfound : t.entry? e.key with
  | none =>
    have habsent := List.find?_eq_none.1 hfound e he
    rw [Val.sameKey_iff hkey hkey] at habsent
    exact absurd rfl habsent
  | some found =>
    obtain ⟨hmem, hsame⟩ := h.entry?_found hkey hfound
    rw [List.inj_on_of_nodup_map h.distinct hmem he hsame]

lemma Valid.get_entry (h : t.Valid) (he : e ∈ t.entries) : t.get e.key = e.value := by
  obtain ⟨hkey, harray⟩ := h.keys e he
  rw [get_of_isKey hkey, harray, h.entry?_eq he]

/-- **What is found under a key is what stands there.** -/
theorem Valid.get_eq_iff (h : t.Valid) (hk : key.IsKey) (hv : v ≠ .nil) :
    t.get key = v ↔ t.Holds key v := by
  constructor
  · intro hget
    rw [get_of_isKey hk] at hget
    cases harray : t.arrayIndex? key with
    | some i =>
      obtain ⟨hi, rfl⟩ := (arrayIndex?_eq_some h.size).1 harray
      simp only [harray, Array.getElem?_eq_getElem hi, Option.getD_some] at hget
      exact .item (by rw [Array.getElem?_eq_getElem hi, hget])
    | none =>
      simp only [harray] at hget
      cases hfound : t.entry? key with
      | none =>
        rw [hfound] at hget
        exact absurd hget.symm hv
      | some e =>
        rw [hfound] at hget
        obtain ⟨hmem, hsame⟩ := h.entry?_found hk hfound
        rw [← hsame, ← hget]
        exact .entry hmem
  · intro hholds
    cases hholds with
    | item hitem => exact get_item h.size hitem
    | entry he => exact h.get_entry he

/-- Tables with the same values under a key have the same there. -/
lemma Valid.get_congr (ht : t.Valid) (hu : u.Valid) (hk : k.IsKey)
    (hsame : ∀ v, v ≠ .nil → (u.Holds k v ↔ t.Holds k v)) : u.get k = t.get k := by
  have hiff : ∀ v, v ≠ .nil → (u.get k = v ↔ t.get k = v) := by
    intro v hv
    rw [hu.get_eq_iff hk hv, ht.get_eq_iff hk hv]
    exact hsame v hv
  by_cases hnil : u.get k = .nil
  · by_contra hne
    rw [hnil] at hne
    have hget := (hiff _ (Ne.symm hne)).2 rfl
    rw [hnil] at hget
    exact hne hget
  · exact ((hiff _ hnil).1 rfl).symm

/-! ## Traversal -/

lemma ordered_perm (t : Table) : t.ordered.Perm t.entries := List.mergeSort_perm _ _

lemma mem_itemPairs : (k, v) ∈ t.itemPairs ↔ ∃ i, t.items[i]? = some v ∧ k = .ofNat (i + 1) := by
  simp only [itemPairs, List.mem_mapIdx, Prod.mk.injEq]
  constructor
  · rintro ⟨i, hi, rfl, rfl⟩
    exact ⟨i, by simp [Array.getElem?_eq_getElem (by simpa using hi)], rfl⟩
  · rintro ⟨i, hitem, rfl⟩
    obtain ⟨hi, hv⟩ := Array.getElem?_eq_some_iff.1 hitem
    exact ⟨i, by simpa using hi, rfl, by simpa using hv⟩

/-- A traversal meets what stands in the table and is not `nil`. -/
lemma mem_pairs_iff_holds : (k, v) ∈ t.pairs ↔ v ≠ .nil ∧ t.Holds k v := by
  have hnil : ∀ v : Val, (!v.isNil) = true ↔ v ≠ .nil := by
    intro v
    cases v <;> simp [Val.isNil]
  simp only [pairs, List.mem_filter, List.mem_append, List.mem_map, hnil]
  constructor
  · rintro ⟨hpair | ⟨e, he, heq⟩, hv⟩
    · obtain ⟨i, hitem, rfl⟩ := mem_itemPairs.1 hpair
      exact ⟨hv, .item hitem⟩
    · cases heq
      exact ⟨hv, .entry (t.ordered_perm.mem_iff.1 he)⟩
  · rintro ⟨hv, h⟩
    refine ⟨?_, hv⟩
    cases h with
    | item h => exact .inl (mem_itemPairs.2 ⟨_, h, rfl⟩)
    | @entry e he => exact .inr ⟨e, t.ordered_perm.mem_iff.2 he, rfl⟩

lemma Valid.isKey (h : t.Valid) (hholds : t.Holds k v) : k.IsKey := by
  cases hholds with
  | item => exact Val.isKey_ofNat _
  | entry he => exact (h.keys _ he).1

/-- **A traversal meets every key that has a value.** -/
theorem Valid.mem_pairs (h : t.Valid) : (k, v) ∈ t.pairs ↔ v ≠ .nil ∧ k.IsKey ∧ t.get k = v := by
  rw [mem_pairs_iff_holds]
  constructor
  · rintro ⟨hv, hholds⟩
    have hk := h.isKey hholds
    exact ⟨hv, hk, (h.get_eq_iff hk hv).2 hholds⟩
  · rintro ⟨hv, hk, hget⟩
    exact ⟨hv, (h.get_eq_iff hk hv).1 hget⟩

lemma Valid.nodup_itemPairs (h : t.Valid) : (t.itemPairs.map (·.1)).Nodup := by
  have hmap : t.itemPairs.map (·.1) = (List.range t.items.size).map fun i => .ofNat (i + 1) := by
    apply List.ext_getElem
    · simp [itemPairs]
    · intro i hi hi'
      simp [itemPairs]
  rw [hmap]
  refine List.Nodup.map_on ?_ List.nodup_range
  intro i hi j hj heq
  have hsize := h.size
  have hi := List.mem_range.1 hi
  have hj := List.mem_range.1 hj
  have hsame := (Val.ofNat_inj (by omega) (by omega)).1 heq
  omega

/-- **A traversal meets no key twice.** -/
theorem Valid.nodup_pairs (h : t.Valid) : (t.pairs.map (·.1)).Nodup := by
  have hall : ((t.itemPairs ++ t.ordered.map fun e => (e.key, e.value)).map (·.1)).Nodup := by
    rw [List.map_append, List.map_map, List.nodup_append]
    refine ⟨h.nodup_itemPairs, ?_, ?_⟩
    · exact (t.ordered_perm.map _).nodup_iff.2 h.distinct
    · -- an index of the array is the key of no entry
      intro k hindex k' hentry heq
      obtain ⟨⟨k, v⟩, hpair, rfl⟩ := List.mem_map.1 hindex
      obtain ⟨i, hitem, rfl⟩ := mem_itemPairs.1 hpair
      obtain ⟨e, he, rfl⟩ := List.mem_map.1 hentry
      obtain ⟨hi, -⟩ := Array.getElem?_eq_some_iff.1 hitem
      have hnone := (h.keys e (t.ordered_perm.mem_iff.1 he)).2
      have hkey : e.key = .ofNat (i + 1) := heq.symm
      rw [hkey, (arrayIndex?_eq_some h.size).2 ⟨hi, rfl⟩] at hnone
      cases hnone
  exact hall.sublist (List.filter_sublist.map _)

/-! ## Writing -/

/-- The second table is the first one with a value under a key. -/
structure Writes (t u : Table) (key value : Val) : Prop where
  valid : u.Valid
  get_key : u.get key = value
  get_other : ∀ k, k.IsKey → k ≠ key → u.get k = t.get k
  metatable_eq : u.metatable = t.metatable

/-- It is enough to look at what stands under the other keys. -/
lemma writes_of_holds (ht : t.Valid) (hu : u.Valid) (hkey : u.get key = value)
    (hother : ∀ k v, k ≠ key → v ≠ .nil → (u.Holds k v ↔ t.Holds k v))
    (hmeta : u.metatable = t.metatable) : Writes t u key value where
  valid := hu
  get_key := hkey
  get_other := fun k hk hne => ht.get_congr hu hk fun v hv => hother k v hne hv
  metatable_eq := hmeta

/-- A value in the array gives way to another. -/
lemma Valid.writes_item (ht : t.Valid) (hi : i < t.items.size) (value : Val) :
    Writes t { t with items := t.items.setIfInBounds i value } (.ofNat (i + 1)) value := by
  have hsize : (t.items.setIfInBounds i value).size = t.items.size := Array.size_setIfInBounds
  have hu : Valid { t with items := t.items.setIfInBounds i value } := by
    refine ⟨by rw [hsize]; exact ht.size, fun e he => ?_, ht.distinct, ht.places, ht.below, ht.free⟩
    rw [arrayIndex?_congr hsize]
    exact ht.keys e he
  refine writes_of_holds ht hu ?_ ?_ rfl
  · refine get_item hu.size ?_
    rw [Array.getElem?_setIfInBounds_self_of_lt hi]
  · intro k v hk _
    constructor
    · intro h
      cases h with
      | @item j _ h =>
        have hne : i ≠ j := fun heq => hk (by rw [heq])
        rw [Array.getElem?_setIfInBounds_ne hne] at h
        exact .item h
      | entry h => exact .entry (t := t) h
    · intro h
      cases h with
      | @item j _ h =>
        have hne : i ≠ j := fun heq => hk (by rw [heq])
        refine .item ?_
        rw [Array.getElem?_setIfInBounds_ne hne]
        exact h
      | entry h => exact .entry (t := { t with items := t.items.setIfInBounds i value }) h

/-- The value of an entry gives way to another. -/
lemma Valid.writes_entry (ht : t.Valid) (he : e ∈ t.entries) (value : Val) :
    Writes t { t with entries := t.entries.map (Entry.revised e.key value) } e.key value := by
  have hkey := (ht.keys e he).1
  have hu : Valid { t with entries := t.entries.map (Entry.revised e.key value) } := by
    refine ⟨ht.size, ?_, ?_, ?_, ?_, ht.free⟩
    · intro changed hchanged
      obtain ⟨f, hf, rfl⟩ := List.mem_map.1 hchanged
      rw [Entry.key_revised]
      exact ht.keys f hf
    · rw [Entry.keys_revised]
      exact ht.distinct
    · rw [Entry.places_revised]
      exact ht.places
    · intro changed hchanged
      obtain ⟨f, hf, rfl⟩ := List.mem_map.1 hchanged
      rw [Entry.place_revised, List.length_map]
      exact ht.below f hf
  -- all other entries stay
  have hkept : ∀ f ∈ t.entries, f.key ≠ e.key → f.revised e.key value = f := by
    intro f hf hne
    exact if_neg fun hsame => hne ((Val.sameKey_iff (ht.keys f hf).1 hkey).1 hsame)
  refine writes_of_holds ht hu ?_ ?_ rfl
  · have hmem : e.revised e.key value ∈ t.entries.map (Entry.revised e.key value) :=
      List.mem_map_of_mem he
    have hget := hu.get_entry hmem
    rw [Entry.revised, if_pos ((Val.sameKey_iff hkey hkey).2 rfl)] at hget
    exact hget
  · intro k v hk _
    constructor
    · intro h
      cases h with
      | item h => exact .item (t := t) h
      | entry h =>
        obtain ⟨f, hf, rfl⟩ := List.mem_map.1 h
        rw [Entry.key_revised] at hk
        rw [hkept f hf hk]
        exact .entry hf
    · intro h
      cases h with
      | item h =>
        exact .item (t := { t with entries := t.entries.map (Entry.revised e.key value) }) h
      | @entry f hf =>
        have hmem : f ∈ t.entries.map (Entry.revised e.key value) :=
          List.mem_map.2 ⟨f, hf, hkept f hf hk⟩
        exact .entry (t := { t with entries := t.entries.map (Entry.revised e.key value) }) hmem

/-- **Writing where there is room already** changes what is found under the key. -/
theorem Valid.writes_replace? (ht : t.Valid) (hk : key.IsKey) (h : t.replace? key value = some u) :
    Writes t u key value := by
  unfold replace? at h
  split at h
  · next i harray =>
    obtain ⟨hi, rfl⟩ := (arrayIndex?_eq_some ht.size).1 harray
    cases h
    exact ht.writes_item hi value
  · split at h
    · next hsome =>
      obtain ⟨e, hfound⟩ := Option.isSome_iff_exists.1 hsome
      obtain ⟨hmem, rfl⟩ := ht.entry?_found hk hfound
      cases h
      exact ht.writes_entry hmem value
    · cases h

/-- There is no room for a key that neither the array nor an entry is there for. -/
lemma Valid.absent_of_replace? (ht : t.Valid) (h : t.replace? key value = none) :
    t.arrayIndex? key = none ∧ ∀ e ∈ t.entries, e.key ≠ key := by
  unfold replace? at h
  split at h
  · cases h
  · next harray =>
    refine ⟨harray, fun e he hsame => ?_⟩
    subst hsame
    rw [ht.entry?_eq he] at h
    cases h

end Table

end BracketTemplate.Script
