import Mathlib
import BracketTemplate.Value.Basic

/-!
# Values and the entries of maps

The entries of a map that is written key by key are the last ones that were written under each name
(`lookup_ofEntries`), and the names are in the order in which they were written first
(`keys_ofEntries`).

Two values are alike when they differ in the order of entries only (`Alike`).  That is what `beq`
says, but for doubles that are not numbers: they are alike, and not equal.  So a value that is equal
to itself is equal to what it is alike with (`Storable.beq_of_alike`).
-/

namespace BracketTemplate.Value

variable {key name : String} {v w x : Value} {entries written : List (String × Value)}

/-! ## Entries -/

lemma lookup_insert (key : String) (v : Value) (entries : List (String × Value)) (name : String) :
    lookup name (insert key v entries) = if name = key then some v else lookup name entries := by
  induction entries with
  | nil => simp [insert, lookup, eq_comm]
  | cons entry rest ih =>
    obtain ⟨k, x⟩ := entry
    rw [insert]
    by_cases hkey : k = key
    · rw [if_pos hkey, lookup, lookup]
      subst hkey
      by_cases hname : k = name
      · rw [if_pos hname, if_pos hname.symm]
      · rw [if_neg hname, if_neg (Ne.symm hname), if_neg hname]
    · rw [if_neg hkey, lookup, lookup, ih]
      by_cases hname : k = name
      · have hne : ¬name = key := fun heq => hkey (hname.trans heq)
        rw [if_pos hname, if_neg hne, if_pos hname]
      · rw [if_neg hname, if_neg hname]

/-- A new name goes to the end. -/
lemma insert_of_notMem (h : key ∉ entries.map (·.1)) (v : Value) :
    insert key v entries = entries ++ [(key, v)] := by
  induction entries with
  | nil => rfl
  | cons entry rest ih =>
    obtain ⟨k, x⟩ := entry
    simp only [List.map_cons, List.mem_cons, not_or] at h
    rw [insert, if_neg (Ne.symm h.1), ih h.2, List.cons_append]

/-- Writing an entry whose name is there leaves the names as they are. -/
lemma keys_insert (key : String) (v : Value) (entries : List (String × Value)) :
    (insert key v entries).map (·.1) =
      if key ∈ entries.map (·.1) then entries.map (·.1) else entries.map (·.1) ++ [key] := by
  split
  · next hmem =>
    induction entries with
    | nil => cases hmem
    | cons entry rest ih =>
      obtain ⟨k, x⟩ := entry
      rw [insert]
      split
      · rfl
      · next hkey =>
        have hrest : key ∈ rest.map (·.1) := (List.mem_cons.1 hmem).resolve_left (Ne.symm hkey)
        rw [List.map_cons, ih hrest, List.map_cons]
  · next hmem => rw [insert_of_notMem hmem, List.map_append, List.map_singleton]

/-- An entry whose name is there once is found. -/
lemma lookup_of_mem (hnames : (entries.map (·.1)).Nodup) (h : (name, v) ∈ entries) :
    lookup name entries = some v := by
  induction entries with
  | nil => cases h
  | cons entry rest ih =>
    obtain ⟨k, x⟩ := entry
    rw [List.map_cons, List.nodup_cons] at hnames
    rw [lookup]
    rcases List.mem_cons.1 h with heq | hrest
    · cases heq
      rw [if_pos rfl]
    · have hne : ¬k = name := fun heq => hnames.1 (List.mem_map.2 ⟨_, hrest, heq.symm⟩)
      rw [if_neg hne, ih hnames.2 hrest]

/-- What is found among entries that are written one after another was written last under its name,
or was there before and has not been written since. -/
lemma lookup_foldl_insert (entries written : List (String × Value)) (name : String) :
    lookup name (entries.foldl (fun written (k, v) => insert k v written) written) =
      ((entries.filter (·.1 = name)).getLast?.map (·.2)).or (lookup name written) := by
  induction entries generalizing written with
  | nil => rfl
  | cons entry rest ih =>
    obtain ⟨k, x⟩ := entry
    rw [List.foldl_cons, ih, lookup_insert, List.filter_cons]
    by_cases hname : name = k
    · have hkey : decide ((k, x).1 = name) = true := by simpa using hname.symm
      rw [if_pos hname, if_pos hkey, List.getLast?_cons]
      cases (rest.filter (·.1 = name)).getLast? <;> rfl
    · have hkey : ¬decide ((k, x).1 = name) = true := by simpa using Ne.symm hname
      rw [if_neg hname, if_neg hkey]

/-- **The entries of a map are the last ones written under each name.** -/
theorem lookup_ofEntries (entries : List (String × Value)) (name : String) :
    lookup name (ofEntries entries) = (entries.filter (·.1 = name)).getLast?.map (·.2) := by
  rw [ofEntries, lookup_foldl_insert]
  exact Option.or_none

/-- No name that is written is lost, and the last value that is written under it stays. -/
lemma exists_lookup_ofEntries (front back : List (String × Value)) (name : String) (v : Value) :
    ∃ x, lookup name (ofEntries (front ++ (name, v) :: back)) = some x ∧
      (name ∉ back.map (·.1) → x = v) := by
  have hfilter : (front ++ (name, v) :: back).filter (·.1 = name) =
      front.filter (·.1 = name) ++ (name, v) :: back.filter (·.1 = name) := by
    simp [List.filter_append]
  rw [lookup_ofEntries, hfilter, List.getLast?_append_cons, List.getLast?_cons]
  refine ⟨_, rfl, fun hback => ?_⟩
  have hnone : back.filter (·.1 = name) = [] :=
    List.filter_eq_nil_iff.2 fun entry hentry hname =>
      hback (List.mem_map.2 ⟨entry, hentry, of_decide_eq_true hname⟩)
  rw [hnone]
  rfl

lemma ofEntries_concat (entries : List (String × Value)) (entry : String × Value) :
    ofEntries (entries ++ [entry]) = insert entry.1 entry.2 (ofEntries entries) := by
  rw [ofEntries, List.foldl_append]
  rfl

/-- **The names of entries are in the order of their first writes.** -/
theorem keys_ofEntries (entries : List (String × Value)) :
    (ofEntries entries).map (·.1) = (entries.map (·.1)).eraseDups := by
  induction entries using List.reverseRecOn with
  | nil => rfl
  | append_singleton entries entry ih =>
    rw [ofEntries_concat, keys_insert, ih, List.map_append, List.eraseDups_append,
      List.map_singleton]
    simp only [List.mem_eraseDups]
    split
    · next hmem => simp [List.removeAll, hmem]
    · next hmem => simp [List.removeAll, hmem, List.eraseDups_cons]

lemma nodup_ofEntries (entries : List (String × Value)) :
    ((ofEntries entries).map (·.1)).Nodup := by
  induction entries using List.reverseRecOn with
  | nil => exact List.nodup_nil
  | append_singleton entries entry ih =>
    rw [ofEntries_concat, keys_insert]
    split
    · exact ih
    · next hmem => exact List.concat_eq_append ▸ ih.concat hmem

/-! ## Values alike -/

mutual

/-- The two values differ in the order of the entries of maps only. -/
def Alike : Value → Value → Prop
  | nil, nil => True
  | bool a, bool b => a = b
  | int a, int b => a = b
  | float a, float b => a = b
  | str a, str b => a = b
  | list a, list b => AlikeItems a b
  | map a, map b => a.length = b.length ∧ AlikeEntries a b
  | _, _ => False

/-- The items of two lists are alike, item by item. -/
def AlikeItems : List Value → List Value → Prop
  | [], [] => True
  | a :: as, b :: bs => Alike a b ∧ AlikeItems as bs
  | _, _ => False

/-- Every entry of the first has a value alike under its key in the second. -/
def AlikeEntries : List (String × Value) → List (String × Value) → Prop
  | [], _ => True
  | (key, a) :: rest, b => (∃ v, lookup key b = some v ∧ Alike a v) ∧ AlikeEntries rest b

end

lemma alikeItems_iff {as bs : List Value} : AlikeItems as bs ↔ List.Forall₂ Alike as bs := by
  induction as generalizing bs with
  | nil => cases bs <;> simp [AlikeItems]
  | cons a as ih => cases bs <;> simp [AlikeItems, ih]

lemma alikeEntries_iff {as bs : List (String × Value)} :
    AlikeEntries as bs ↔ ∀ p ∈ as, ∃ v, lookup p.1 bs = some v ∧ Alike p.2 v := by
  induction as with
  | nil => simp [AlikeEntries]
  | cons p as ih => simp [AlikeEntries, ih]

/-- A map is alike with one that has values alike under the same names, in any order. -/
lemma alike_map {order others : List (String × Value)} (hnames : (entries.map (·.1)).Nodup)
    (horder : order.Perm entries)
    (h : List.Forall₂ (fun e w => e.1 = w.1 ∧ e.2.Alike w.2) order others) :
    Alike (map entries) (map others) := by
  have hsame : order.map (·.1) = others.map (·.1) := by
    rw [← List.forall₂_eq_eq_eq, List.forall₂_map_left_iff, List.forall₂_map_right_iff]
    exact h.imp fun _ _ hew => hew.1
  have hothers : (others.map (·.1)).Nodup := hsame ▸ (horder.map _).nodup_iff.2 hnames
  rw [Alike, alikeEntries_iff]
  refine ⟨horder.length_eq ▸ h.length_eq, fun p hp => ?_⟩
  obtain ⟨i, hi, rfl⟩ := List.getElem_of_mem (horder.mem_iff.2 hp)
  obtain ⟨hname, halike⟩ := (List.forall₂_iff_get.1 h).2 i hi (h.length_eq ▸ hi)
  exact ⟨_, lookup_of_mem hothers (hname ▸ List.get_mem _ _), halike⟩

lemma beqItems_iff {as bs : List Value} :
    beqItems as bs = true ↔ List.Forall₂ (fun a b => beq a b = true) as bs := by
  induction as generalizing bs with
  | nil => cases bs <;> simp [beqItems]
  | cons a as ih => cases bs <;> simp [beqItems, ih]

lemma beqEntries_iff {as bs : List (String × Value)} :
    beqEntries as bs = true ↔ ∀ p ∈ as, ∃ v, lookup p.1 bs = some v ∧ beq p.2 v = true := by
  induction as with
  | nil => simp [beqEntries]
  | cons p as ih =>
    simp only [beqEntries, Bool.and_eq_true, ih, List.forall_mem_cons]
    cases lookup p.1 bs <;> simp

/-! ## How deep values are nested -/

mutual

/-- How many lists and maps are nested inside each other. -/
def depth : Value → Nat
  | list items => depthItems items + 1
  | map entries => depthEntries entries + 1
  | _ => 0

/-- How deep the items of a list are nested. -/
def depthItems : List Value → Nat
  | [] => 0
  | v :: rest => max (depth v) (depthItems rest)

/-- How deep the values of a map are nested. -/
def depthEntries : List (String × Value) → Nat
  | [] => 0
  | (_, v) :: rest => max (depth v) (depthEntries rest)

end

lemma depthEntries_le {n : Nat} : depthEntries entries ≤ n ↔ ∀ p ∈ entries, depth p.2 ≤ n := by
  induction entries with
  | nil => simp [depthEntries]
  | cons p rest ih => simp [depthEntries, ih]

lemma depthEntries_perm {others : List (String × Value)} (h : entries.Perm others) :
    depthEntries entries = depthEntries others := by
  have hle : ∀ {as bs : List (String × Value)}, as.Perm bs → depthEntries as ≤ depthEntries bs :=
    fun hperm => depthEntries_le.2 fun p hp => depthEntries_le.1 le_rfl p (hperm.mem_iff.1 hp)
  exact le_antisymm (hle h) (hle h.symm)

/-! ## Values that can be stored -/

/-- A value that tables have a place for: no list or map in it contains `nil`, and no list is empty.
A list is not longer than memory is, and every name of a map is there once. -/
inductive Storable : Value → Prop
  | nil : Storable nil
  | bool (b : Bool) : Storable (bool b)
  | int (i : Int64) : Storable (int i)
  | float (x : Float) : Storable (float x)
  | str (s : String) : Storable (str s)
  | list {items : List Value} (hne : items ≠ []) (hlength : items.length < 2 ^ 63)
      (hnil : Value.nil ∉ items) (hitems : ∀ v ∈ items, Storable v) : Storable (list items)
  | map {entries : List (String × Value)} (hnames : (entries.map (·.1)).Nodup)
      (hnil : Value.nil ∉ entries.map (·.2)) (hentries : ∀ p ∈ entries, Storable p.2) :
      Storable (map entries)

/-- **What is alike with a value that equals itself is equal to it.** -/
theorem Storable.beq_of_alike (hv : v.Storable) (hself : v.beq v = true) (h : v.Alike w) :
    v.beq w = true := by
  induction hv generalizing w with
  | nil | bool _ | int _ | float _ | str _ =>
    cases w <;> simp_all [Alike]
  | @list items _ _ _ _ ih =>
    cases w with
    | list others =>
      rw [Alike, alikeItems_iff] at h
      rw [beq, beqItems_iff, List.forall₂_same] at hself
      rw [beq, beqItems_iff]
      have hboth := (List.forall₂_and_left (p := (· ∈ items)) items others).2 ⟨fun _ => id, h⟩
      exact hboth.imp fun a b hab => ih a hab.1 (hself a hab.1) hab.2
    | _ => cases h
  | @map entries hnames _ _ ih =>
    cases w with
    | map others =>
      rw [Alike, alikeEntries_iff] at h
      simp only [beq, Bool.and_eq_true, beqEntries_iff] at hself ⊢
      refine ⟨by simpa using h.1, fun p hp => ?_⟩
      obtain ⟨x, hx, hpx⟩ := hself.2 p hp
      obtain ⟨y, hy, hpy⟩ := h.2 p hp
      have hsame : x = p.2 := by
        rw [lookup_of_mem hnames hp] at hx
        exact (Option.some_inj.1 hx).symm
      exact ⟨y, hy, ih p hp (hsame ▸ hpx) hpy⟩
    | _ => cases h

end BracketTemplate.Value
