import Mathlib
import BracketTemplate.Proofs.Table.Border
import BracketTemplate.Proofs.Table.Layout
import BracketTemplate.Proofs.Text.Utf8
import BracketTemplate.Proofs.Value.Equality
import BracketTemplate.Script.Conversion

/-!
# Values in a heap

A value that enters a script stands in the heap from then on (`Heap.lands`).  A list stands in a
table that counts its items and a map in one whose keys are the names.  A table is made after those
that stand in it, so that every table in it comes before it; this is how `Heap.Stands` knows that no
table contains itself.

Tables that are there already are left alone (`Heap.Grown`).
-/

namespace BracketTemplate.Script

variable {h h' : Heap} {bound bound' : Nat} {x : Val} {v : Value}

namespace Heap

/-! ## Heaps that grow -/

/-- There are more tables, and those from before are as they were. -/
structure Grown (h h' : Heap) : Prop where
  size : h.tables.size ≤ h'.tables.size
  table : ∀ id < h.tables.size, h'.table id = h.table id

namespace Grown

lemma refl (h : Heap) : h.Grown h := ⟨le_rfl, fun _ _ => rfl⟩

lemma trans {h₁ h₂ h₃ : Heap} (first : h₁.Grown h₂) (second : h₂.Grown h₃) : h₁.Grown h₃ where
  size := first.size.trans second.size
  table := fun id hid => (second.table id (hid.trans_le first.size)).trans (first.table id hid)

end Grown

lemma grown_newTable (h : Heap) (t : Table) : h.Grown (h.newTable t).2 where
  size := by simp [newTable]
  table := fun id hid => by simp [newTable, table, Array.getElem?_push, hid.ne]

lemma table_newTable (h : Heap) (t : Table) : (h.newTable t).2.table (h.newTable t).1 = t := by
  simp [newTable, table]

/-! ## Values that stand in a heap -/

/-- A value of a template stands in the heap as a value of the script, in tables below a bound. -/
inductive Stands (h : Heap) : Nat → Val → Value → Prop
  | nil {bound : Nat} : Stands h bound .nil .nil
  | bool {bound : Nat} (b : Bool) : Stands h bound (.bool b) (.bool b)
  | int {bound : Nat} (i : Int64) : Stands h bound (.int i) (.int i)
  | float {bound : Nat} (x : Float) : Stands h bound (.float x) (.float x)
  | str {bound : Nat} (s : String) : Stands h bound (.ofString s) (.str s)
  | list {bound id : Nat} {items : List Value} (hid : id < bound) (hne : items ≠ [])
      (hvalid : (h.table id).Valid) (hcounts : (h.table id).Counts items.length)
      (hitems : ∀ i (hi : i < items.length), Stands h id ((h.table id).getInt (i + 1)) items[i]) :
      Stands h bound (.table id) (.list items)
  | map {bound id : Nat} {entries : List (String × Value)} (hid : id < bound)
      (hvalid : (h.table id).Valid) (hnames : (entries.map (·.1)).Nodup)
      (hkeys : ∀ k, k.IsKey →
        ((h.table id).get k ≠ .nil ↔ k ∈ (entries.map (·.1)).map .ofString))
      (hentries : ∀ p ∈ entries, Stands h id ((h.table id).getStr p.1) p.2) :
      Stands h bound (.table id) (.map entries)

lemma Stands.ne_nil (hx : h.Stands bound x v) (hv : v ≠ .nil) : x ≠ .nil := by
  cases hx <;> first | exact absurd rfl hv | exact nofun

/-- A value stands where the tables below its bound are the same. -/
lemma Stands.congr (hx : h.Stands bound x v) (hbound : bound ≤ bound')
    (hsame : ∀ id < bound, h'.table id = h.table id) : h'.Stands bound' x v := by
  induction hx generalizing bound' with
  | nil => exact .nil
  | bool b => exact .bool b
  | int i => exact .int i
  | float x => exact .float x
  | str s => exact .str s
  | @list bound id items hid hne hvalid hcounts _ ih =>
    have htable := hsame id hid
    refine .list (hid.trans_le hbound) hne (by rwa [htable]) (by rwa [htable]) fun i hi => ?_
    rw [htable]
    exact ih i hi le_rfl fun j hj => hsame j (hj.trans hid)
  | @map bound id entries hid hvalid hnames hkeys _ ih =>
    have htable := hsame id hid
    refine .map (hid.trans_le hbound) (by rwa [htable]) hnames (by rwa [htable]) fun p hp => ?_
    rw [htable]
    exact ih p hp le_rfl fun j hj => hsame j (hj.trans hid)

/-- A value that stands in a heap still does when the heap has grown. -/
lemma Stands.grown (hx : h.Stands h.tables.size x v) (hgrown : h.Grown h') :
    h'.Stands h'.tables.size x v :=
  hx.congr hgrown.size hgrown.table

end Heap

open Heap

/-! ## Values under keys -/

namespace Heap

/-- Puts values under keys, one after another. -/
def importUnder (h : Heap) (t : Table) : List (Val × Value) → Table × Heap
  | [] => (t, h)
  | (key, v) :: rest =>
    let (x, h) := h.import v
    h.importUnder (t.set key x) rest

lemma importItems_eq (h : Heap) (t : Table) (i : Nat) (items : List Value) :
    h.importItems t i items =
      h.importUnder t (((List.range' i items.length).map Val.ofNat).zip items) := by
  induction items generalizing h t i with
  | nil => rw [importItems, List.zip_nil_right, importUnder]
  | cons v rest ih =>
    rw [importItems, List.length_cons, List.range'_succ, List.map_cons, List.zip_cons_cons,
      importUnder]
    exact ih _ _ _

lemma importEntries_eq (h : Heap) (t : Table) (entries : List (String × Value)) :
    h.importEntries t entries =
      h.importUnder t (entries.map fun p => (.ofString p.1, p.2)) := by
  induction entries generalizing h t with
  | nil => rw [importEntries, List.map_nil, importUnder]
  | cons p rest ih =>
    rw [importEntries, List.map_cons, importUnder]
    exact ih _ _

/-- Wherever the value is brought into a heap, it stands there then. -/
def Lands (v : Value) : Prop :=
  ∀ h : Heap, h.Grown (h.import v).2 ∧
    (h.import v).2.Stands (h.import v).2.tables.size (h.import v).1 v

variable {t : Table} {under : List (Val × Value)}

/-- Values that are put under keys stand in the heap at the end, and each has been written. -/
lemma exists_importUnder (hunder : ∀ u ∈ under, Lands u.2) (h : Heap) (t : Table) :
    ∃ pairs : List (Val × Val),
      h.Grown (h.importUnder t under).2 ∧
      (h.importUnder t under).1 = pairs.foldl (fun t p => t.set p.1 p.2) t ∧
      pairs.map (·.1) = under.map (·.1) ∧
      ∀ u ∈ under, ∃ p ∈ pairs, p.1 = u.1 ∧ (h.importUnder t under).2.Stands
        (h.importUnder t under).2.tables.size p.2 u.2 := by
  induction under generalizing h t with
  | nil => exact ⟨[], .refl h, rfl, rfl, nofun⟩
  | cons first rest ih =>
    obtain ⟨hgrown, hstands⟩ := hunder first List.mem_cons_self h
    obtain ⟨pairs, hrest, htable, hkeys, hpairs⟩ :=
      ih (fun u hu => hunder u (List.mem_cons_of_mem _ hu)) (h.import first.2).2
        (t.set first.1 (h.import first.2).1)
    refine ⟨(first.1, (h.import first.2).1) :: pairs, hgrown.trans hrest, htable,
      by rw [List.map_cons, List.map_cons, hkeys], fun u hu => ?_⟩
    rcases List.mem_cons.1 hu with rfl | hu
    · exact ⟨_, List.mem_cons_self, rfl, hstands.grown hrest⟩
    · obtain ⟨p, hp, hpu⟩ := hpairs u hu
      exact ⟨p, List.mem_cons_of_mem _ hp, hpu⟩

/-- **Putting values under keys** of an empty table leaves them there, and nothing else. -/
theorem importUnder_table (hunder : ∀ u ∈ under, Lands u.2) (hnil : ∀ u ∈ under, u.2 ≠ .nil)
    (hkeys : ∀ u ∈ under, u.1.IsKey) (hnodup : (under.map (·.1)).Nodup) (ht : t.Valid)
    (hempty : ∀ k, k.IsKey → t.get k = .nil) (h : Heap) :
    h.Grown (h.importUnder t under).2 ∧ (h.importUnder t under).1.Valid ∧
      (∀ u ∈ under, (h.importUnder t under).2.Stands (h.importUnder t under).2.tables.size
        ((h.importUnder t under).1.get u.1) u.2) ∧
      ∀ k, k.IsKey → ((h.importUnder t under).1.get k ≠ .nil ↔ k ∈ under.map (·.1)) := by
  obtain ⟨pairs, hgrown, htable, hnames, hpairs⟩ := exists_importUnder hunder h t
  have hpairkeys : ∀ p ∈ pairs, p.1.IsKey := by
    intro p hp
    obtain ⟨u, hu, heq⟩ := List.mem_map.1 (hnames ▸ List.mem_map_of_mem hp)
    exact heq ▸ hkeys u hu
  have hwrite : ∀ (t : Table) (key value : Val), t.Valid → key.IsKey →
      Table.Writes t (t.set key value) key value := by
    intro t key value ht hk
    have hwrites := ht.writes_set hk.1 hk.2.1 value
    rwa [hk.2.2] at hwrites
  obtain ⟨hvalid, hwritten, hother, -⟩ :=
    Table.writes_foldl hwrite hpairkeys (hnames ▸ hnodup) ht htable.symm
  have hstands : ∀ u ∈ under, (h.importUnder t under).2.Stands
      (h.importUnder t under).2.tables.size ((h.importUnder t under).1.get u.1) u.2 := by
    intro u hu
    obtain ⟨p, hp, hkey, hx⟩ := hpairs u hu
    rwa [← hkey, hwritten p hp]
  refine ⟨hgrown, hvalid, hstands, fun k hk => ⟨fun hget => ?_, fun hmem => ?_⟩⟩
  · by_contra hnot
    exact hget ((hother k hk (hnames ▸ hnot)).trans (hempty k hk))
  · obtain ⟨u, hu, rfl⟩ := List.mem_map.1 hmem
    exact (hstands u hu).ne_nil (hnil u hu)

/-- What is in a new table stands below it. -/
lemma Stands.newTable (hx : h.Stands h.tables.size x v) (t : Table) :
    (h.newTable t).2.Stands (h.newTable t).1 x v :=
  hx.congr le_rfl (grown_newTable h t).table

/-! ## Lists -/

/-- The items of a list under their indices. -/
def indexed (items : List Value) : List (Val × Value) :=
  ((List.range' 1 items.length).map Val.ofNat).zip items

lemma map_fst_indexed (items : List Value) :
    (indexed items).map (·.1) = (List.range' 1 items.length).map Val.ofNat :=
  List.map_fst_zip (by simp)

lemma snd_mem_of_mem_indexed {items : List Value} {u : Val × Value} (hu : u ∈ indexed items) :
    u.2 ∈ items :=
  (List.of_mem_zip hu).2

lemma mem_map_fst_indexed {items : List Value} {k : Val} :
    k ∈ (indexed items).map (·.1) ↔ ∃ i, 1 ≤ i ∧ i ≤ items.length ∧ k = .ofNat i := by
  rw [map_fst_indexed, List.mem_map]
  constructor
  · rintro ⟨i, hi, rfl⟩
    rw [List.mem_range'_1] at hi
    exact ⟨i, hi.1, by omega, rfl⟩
  · rintro ⟨i, hpos, hle, rfl⟩
    exact ⟨i, List.mem_range'_1.2 ⟨hpos, by omega⟩, rfl⟩

lemma nodup_map_fst_indexed {items : List Value} (hlength : items.length < 2 ^ 63) :
    ((indexed items).map (·.1)).Nodup := by
  rw [map_fst_indexed]
  refine List.Nodup.map_on ?_ List.nodup_range'
  intro i hi j hj heq
  rw [List.mem_range'_1] at hi hj
  exact (Val.ofNat_inj (by omega) (by omega)).1 heq

lemma getElem_mem_indexed {items : List Value} {i : Nat} (hi : i < items.length) :
    (.ofNat (i + 1), items[i]) ∈ indexed items := by
  have hlength : i < (indexed items).length := by simpa [indexed] using hi
  have hget : (indexed items)[i] = (.ofNat (i + 1), items[i]) := by
    simp [indexed, Nat.add_comm]
  exact hget ▸ List.getElem_mem hlength

/-- A list stands in a table that counts its items. -/
lemma lands_list {items : List Value} (hne : items ≠ []) (hlength : items.length < 2 ^ 63)
    (hnil : Value.nil ∉ items) (hitems : ∀ v ∈ items, Lands v) : Lands (.list items) := by
  intro h
  have himport : h.importItems (.withRoom items.length 0) 1 items =
      h.importUnder (.withRoom items.length 0) (indexed items) := importItems_eq h _ 1 items
  obtain ⟨ht, hempty⟩ := Table.valid_withRoom hlength 0
  obtain ⟨hgrown, hvalid, hstands, hkeys⟩ := importUnder_table
    (fun u hu => hitems _ (snd_mem_of_mem_indexed hu))
    (fun u hu heq => hnil (heq ▸ snd_mem_of_mem_indexed hu))
    (fun u hu => by
      obtain ⟨i, -, -, heq⟩ := mem_map_fst_indexed.1 (List.mem_map_of_mem hu)
      exact heq ▸ Val.isKey_ofNat i)
    (nodup_map_fst_indexed hlength) ht hempty h
  rw [Heap.import, himport]
  generalize h.importUnder (.withRoom items.length 0) (indexed items) = made at *
  obtain ⟨t, filled⟩ := made
  refine ⟨hgrown.trans (grown_newTable filled t), ?_⟩
  have htable := table_newTable filled t
  refine .list (by simp [newTable]) hne (by rwa [htable]) ?_ fun i hi => ?_
  · rw [htable]
    refine ⟨?_, fun k hk => (hkeys k hk).trans mem_map_fst_indexed⟩
    rw [Table.maxIndex_eq]
    omega
  · rw [htable]
    exact (hstands _ (getElem_mem_indexed hi)).newTable t

/-! ## Maps -/

/-- A map stands in a table whose keys are its names. -/
lemma lands_map {entries : List (String × Value)} (hnames : (entries.map (·.1)).Nodup)
    (hnil : Value.nil ∉ entries.map (·.2)) (hentries : ∀ p ∈ entries, Lands p.2) :
    Lands (.map entries) := by
  intro h
  have hmem : ∀ u ∈ entries.map fun p => (Val.ofString p.1, p.2),
      ∃ p ∈ entries, u = (Val.ofString p.1, p.2) := by
    intro u hu
    obtain ⟨p, hp, rfl⟩ := List.mem_map.1 hu
    exact ⟨p, hp, rfl⟩
  have hfst : (entries.map fun p => (Val.ofString p.1, p.2)).map (·.1) =
      (entries.map (·.1)).map Val.ofString := by
    rw [List.map_map, List.map_map]
    rfl
  have hnodup : ((entries.map fun p => (Val.ofString p.1, p.2)).map (·.1)).Nodup := by
    rw [hfst]
    exact hnames.map fun s s' heq => utf8_injective (Val.str.inj heq)
  have hzero : 0 < 2 ^ 63 := by norm_num
  obtain ⟨ht, hempty⟩ := Table.valid_withRoom hzero entries.length
  have hlands : ∀ u ∈ entries.map fun p => (Val.ofString p.1, p.2), Lands u.2 := by
    intro u hu
    obtain ⟨p, hp, rfl⟩ := hmem u hu
    exact hentries p hp
  obtain ⟨hgrown, hvalid, hstands, hkeys⟩ := importUnder_table hlands
    (fun u hu heq => by
      obtain ⟨p, hp, rfl⟩ := hmem u hu
      exact hnil (heq ▸ List.mem_map_of_mem hp))
    (fun u hu => by
      obtain ⟨p, hp, rfl⟩ := hmem u hu
      exact Val.isKey_ofString p.1)
    hnodup ht hempty h
  rw [Heap.import, importEntries_eq]
  generalize h.importUnder (.withRoom 0 entries.length) (entries.map _) = made at *
  obtain ⟨t, filled⟩ := made
  refine ⟨hgrown.trans (grown_newTable filled t), ?_⟩
  have htable := table_newTable filled t
  refine .map (by simp [newTable]) (by rwa [htable]) hnames ?_ fun p hp => ?_
  · rw [htable, ← hfst]
    exact hkeys
  · rw [htable]
    exact (hstands _ (List.mem_map_of_mem hp)).newTable t

/-! ## Values -/

/-- **A value that is brought into a heap stands there**, and the tables from before are as they
were. -/
theorem lands (hv : v.Storable) : Lands v := by
  induction hv with
  | nil => exact fun h => ⟨.refl h, .nil⟩
  | bool b => exact fun h => ⟨.refl h, .bool b⟩
  | int i => exact fun h => ⟨.refl h, .int i⟩
  | float x => exact fun h => ⟨.refl h, .float x⟩
  | str s => exact fun h => ⟨.refl h, .str s⟩
  | list hne hlength hnil _ ih => exact lands_list hne hlength hnil ih
  | map hnames hnil _ ih => exact lands_map hnames hnil ih

end Heap

end BracketTemplate.Script
