import Mathlib
import BracketTemplate.Proofs.Script.Export
import BracketTemplate.Proofs.Script.Import

/-!
# Into a script and back

A value that stands in a heap is read off it (`Stands.restores`): what comes out is the value, with
the entries of its maps in the order of a traversal, and the heap is as it was.  The tables that it
stands in have only values below them, so no table is met inside itself, and the only thing that can
go wrong is that they are nested too deeply.

Together with `Heap.lands` this is the way into a script and back (`export_import`).
-/

namespace BracketTemplate.Script

variable {h : Heap} {room bound i id : Nat} {around : List Nat} {convert : Val → Act Value}
  {x : Val} {v : Value}

/-! ## Values restored -/

/-- The report of tables that are nested too deeply. -/
def tooDeep : String := s!"表嵌套超过 {maxNesting} 层"

/-- A conversion gives a value alike with `v` and leaves the heap when `v` is not nested more deeply
than there is room for, and refuses it otherwise. -/
structure Restores (convert : Val → Act Value) (room : Nat) (h : Heap) (x : Val) (v : Value) :
    Prop where
  give : v.depth ≤ room → ∃ w, convert x h = .done w h ∧ v.Alike w
  refuse : room < v.depth → convert x h = Act.failHost tooDeep h

/-- The items of a sequence are restored when each of them is. -/
lemma exportSequence_restores {items : List Value}
    (hitems : ∀ j (hj : j < items.length),
      Restores convert room h ((h.table id).getInt (i + j)) items[j]) :
    (Value.depthItems items ≤ room → ∃ ws,
      exportSequence id convert items.length i h = .done ws h ∧ Value.AlikeItems items ws) ∧
    (room < Value.depthItems items →
      exportSequence id convert items.length i h = Act.failHost tooDeep h) := by
  induction items generalizing i with
  | nil => exact ⟨fun _ => ⟨[], rfl, trivial⟩, fun hlt => absurd hlt (Nat.not_lt_zero _)⟩
  | cons v rest ih =>
    have hfirst : Restores convert room h ((h.table id).getInt i) v := hitems 0 (by simp)
    have hrest := ih (i := i + 1) fun j hj => by
      have hnext := hitems (j + 1) (by simpa using hj)
      rwa [List.getElem_cons_succ, show i + (j + 1) = i + 1 + j by omega] at hnext
    have hstep : exportSequence id convert (rest.length + 1) i h =
        (convert ((h.table id).getInt i) >>= fun x => do
          return x :: (← exportSequence id convert rest.length (i + 1))) h := rfl
    rw [List.length_cons, hstep, Value.depthItems]
    constructor
    · intro hroom
      obtain ⟨w, hw, halike⟩ := hfirst.give (by omega)
      obtain ⟨ws, hws, hrestalike⟩ := hrest.1 (by omega)
      rw [bind_of_done hw, bind_of_done hws]
      exact ⟨w :: ws, rfl, halike, hrestalike⟩
    · intro hroom
      by_cases hdeep : room < v.depth
      · rw [bind_of_failHost (hfirst.refuse hdeep)]
      · obtain ⟨w, hw, -⟩ := hfirst.give (by omega)
        rw [bind_of_done hw, bind_of_failHost (hrest.2 (by omega))]

/-- The key of a text is the text. -/
lemma stringify_ofString (s : String) (h : Heap) : stringify (.ofString s) h = .done s h := by
  have htext : stringify (.ofString s) h = .done (utf8 s).text h := rfl
  rw [htext, text_utf8]

/-- The entries of a map are restored when each of them is. -/
lemma exportEntries_restores {pairs : List (Val × Val)} {entries done : List (String × Value)}
    (hpairs : List.Forall₂ (fun p e => p.1 = Val.ofString e.1 ∧ Restores convert room h p.2 e.2)
      pairs entries)
    (hnames : (entries.map (·.1)).Nodup)
    (hnew : ∀ e ∈ entries, e.1 ∉ done.map (·.1)) :
    (Value.depthEntries entries ≤ room → ∃ ws,
      exportEntries convert pairs done h = .done (done ++ ws) h ∧
        List.Forall₂ (fun e w => e.1 = w.1 ∧ e.2.Alike w.2) entries ws) ∧
    (room < Value.depthEntries entries →
      exportEntries convert pairs done h = Act.failHost tooDeep h) := by
  induction hpairs generalizing done with
  | nil =>
    refine ⟨fun _ => ⟨[], ?_, .nil⟩, fun hlt => absurd hlt (Nat.not_lt_zero _)⟩
    rw [List.append_nil]
    rfl
  | @cons p e pairs entries hfirst _ ih =>
    obtain ⟨key, x⟩ := p
    obtain ⟨name, v⟩ := e
    obtain ⟨hkey, hvalue⟩ := hfirst
    have hname : key = Val.ofString name := hkey
    have hfirst : Restores convert room h x v := hvalue
    subst hname
    rw [List.map_cons, List.nodup_cons] at hnames
    have hstep : exportEntries convert ((.ofString name, x) :: pairs) done h =
        (stringify (.ofString name) >>= fun name => convert x >>= fun w =>
          exportEntries convert pairs (Value.insert name w done)) h := rfl
    have hnot : name ∉ done.map (·.1) := hnew _ List.mem_cons_self
    rw [hstep, bind_of_done (stringify_ofString name h), Value.depthEntries]
    have hapart : ∀ w : Value, ∀ e ∈ entries, e.1 ∉ (done ++ [(name, w)]).map (·.1) := by
      intro w e he hmem
      rw [List.map_append, List.mem_append] at hmem
      rcases hmem with hdone | hlast
      · exact hnew e (List.mem_cons_of_mem _ he) hdone
      · have hsame : e.1 = name := by simpa using hlast
        exact hnames.1 (List.mem_map.2 ⟨e, he, hsame⟩)
    have hrest := fun w => ih hnames.2 (hapart w)
    constructor
    · intro hroom
      obtain ⟨w, hw, halike⟩ := hfirst.give (by omega)
      obtain ⟨ws, hws, hrestalike⟩ := (hrest w).1 (by omega)
      rw [bind_of_done hw, Value.insert_of_notMem hnot, hws, List.append_assoc]
      exact ⟨(name, w) :: ws, rfl, .cons ⟨rfl, halike⟩ hrestalike⟩
    · intro hroom
      by_cases hdeep : room < v.depth
      · rw [bind_of_failHost (hfirst.refuse hdeep)]
      · obtain ⟨w, hw, -⟩ := hfirst.give (by omega)
        rw [bind_of_done hw, Value.insert_of_notMem hnot, (hrest w).2 (by omega)]

/-! ## Out of a heap -/

/-- A table whose keys are names is no sequence. -/
lemma not_isSequence {t : Table} {names : List String} (ht : t.Valid)
    (hkeys : ∀ k, k.IsKey → (t.get k ≠ .nil ↔ k ∈ names.map Val.ofString)) :
    ¬t.isSequence = true := by
  rw [ht.isSequence_iff]
  rintro ⟨hpos, -⟩
  rcases ht.length_border.present with hzero | hpresent
  · exact hpos hzero
  · have hmem := (hkeys _ (Val.isKey_ofNat _)).1 (Table.absent_eq_false.1 hpresent)
    obtain ⟨s, -, heq⟩ := List.mem_map.1 hmem
    cases heq

/-- The keys and values of such a table are those of the names, in some order. -/
lemma pairs_perm {t : Table} {names : List String} (ht : t.Valid) (hnames : names.Nodup)
    (hkeys : ∀ k, k.IsKey → (t.get k ≠ .nil ↔ k ∈ names.map Val.ofString)) :
    t.pairs.Perm (names.map fun name => (.ofString name, t.getStr name)) := by
  have hleft : t.pairs.Nodup := ht.nodup_pairs.of_map _
  have hright : (names.map fun name => (Val.ofString name, t.getStr name)).Nodup :=
    hnames.map fun s s' heq => utf8_injective (Val.str.inj (Prod.mk.inj heq).1)
  refine (List.perm_ext_iff_of_nodup hleft hright).2 fun p => ?_
  obtain ⟨k, y⟩ := p
  rw [ht.mem_pairs, List.mem_map]
  constructor
  · rintro ⟨hy, hk, rfl⟩
    obtain ⟨name, hname, rfl⟩ := List.mem_map.1 ((hkeys k hk).1 hy)
    exact ⟨name, hname, rfl⟩
  · rintro ⟨name, hname, heq⟩
    cases heq
    have hk := Val.isKey_ofString name
    exact ⟨(hkeys _ hk).2 (List.mem_map_of_mem hname), hk, rfl⟩

/-- A list is restored when its items are. -/
lemma restores_list {items : List Value} (hid : id ∉ around) (hne : items ≠ [])
    (hvalid : (h.table id).Valid) (hcounts : (h.table id).Counts items.length)
    (hitems : ∀ room i (hi : i < items.length), Restores (exportWithin room (id :: around)) room h
      ((h.table id).getInt (i + 1)) items[i]) (room : Nat) :
    Restores (exportWithin room around) room h (.table id) (.list items) := by
  have hdepth : (Value.list items).depth = Value.depthItems items + 1 := by rw [Value.depth]
  cases room with
  | zero => exact ⟨fun hroom => by omega, fun _ => exportWithin_full hid h⟩
  | succ room =>
    have hpos : 1 ≤ items.length := List.length_pos_of_ne_nil hne
    have hsequence := hvalid.isSequence_iff_counts.2 (.inl ⟨_, hpos, hcounts⟩)
    obtain ⟨hgive, hrefuse⟩ := exportSequence_restores (i := 1) fun j hj => by
      rw [Nat.add_comm]
      exact hitems room j hj
    rw [← hcounts.length_eq hvalid] at hgive hrefuse
    constructor
    · intro hroom
      obtain ⟨ws, hws, halike⟩ := hgive (by omega)
      rw [exportWithin_table hid, if_pos hsequence, hws]
      exact ⟨.list ws, rfl, halike⟩
    · intro hroom
      rw [exportWithin_table hid, if_pos hsequence, hrefuse (by omega)]
      rfl

/-- A map is restored when its values are. -/
lemma restores_map {entries : List (String × Value)} (hid : id ∉ around)
    (hvalid : (h.table id).Valid) (hnames : (entries.map (·.1)).Nodup)
    (hkeys : ∀ k, k.IsKey →
      ((h.table id).get k ≠ .nil ↔ k ∈ (entries.map (·.1)).map Val.ofString))
    (hentries : ∀ room, ∀ e ∈ entries, Restores (exportWithin room (id :: around)) room h
      ((h.table id).getStr e.1) e.2) (room : Nat) :
    Restores (exportWithin room around) room h (.table id) (.map entries) := by
  have hdepth : (Value.map entries).depth = Value.depthEntries entries + 1 := by rw [Value.depth]
  cases room with
  | zero => exact ⟨fun hroom => by omega, fun _ => exportWithin_full hid h⟩
  | succ room =>
    have hsequence := not_isSequence hvalid hkeys
    -- a traversal meets the entries in some order
    have hperm := pairs_perm hvalid hnames hkeys
    rw [List.map_map] at hperm
    have hall : List.Forall₂
        (fun p e =>
          p.1 = Val.ofString e.1 ∧ Restores (exportWithin room (id :: around)) room h p.2 e.2)
        (entries.map fun e => (Val.ofString e.1, (h.table id).getStr e.1)) entries := by
      rw [List.forall₂_map_left_iff, List.forall₂_same]
      exact fun e he => ⟨rfl, hentries room e he⟩
    obtain ⟨order, hpairs, horder⟩ := List.perm_comp_forall₂ hperm hall
    have hordered : (order.map (·.1)).Nodup := (horder.map _).nodup_iff.2 hnames
    have hdeep := Value.depthEntries_perm horder
    have hnone : ∀ e ∈ order, e.1 ∉ ([] : List (String × Value)).map (·.1) := by simp
    obtain ⟨hgive, hrefuse⟩ := exportEntries_restores hpairs hordered hnone
    constructor
    · intro hroom
      obtain ⟨ws, hws, halike⟩ := hgive (by omega)
      rw [exportWithin_table hid, if_neg hsequence, hws]
      exact ⟨.map ws, rfl, Value.alike_map hnames horder halike⟩
    · intro hroom
      rw [exportWithin_table hid, if_neg hsequence, hrefuse (by omega)]
      rfl

/-- A table below those around it is none of them, and is below those around its items. -/
lemma below_around (haround : ∀ j ∈ around, bound ≤ j) (hid : id < bound) :
    id ∉ around ∧ ∀ j ∈ id :: around, id ≤ j := by
  constructor
  · intro hmem
    have hle := haround id hmem
    omega
  · intro j hj
    rcases List.mem_cons.1 hj with rfl | hj
    · exact le_rfl
    · exact hid.le.trans (haround j hj)

/-- **What stands in a heap is read off it**, unless it is nested too deeply. -/
theorem Heap.Stands.restores (hx : h.Stands bound x v) (haround : ∀ id ∈ around, bound ≤ id)
    (room : Nat) : Restores (exportWithin room around) room h x v := by
  induction hx generalizing around room with
  | nil => exact ⟨fun _ => ⟨.nil, by cases room <;> rfl, trivial⟩, nofun⟩
  | bool b => exact ⟨fun _ => ⟨.bool b, by cases room <;> rfl, rfl⟩, nofun⟩
  | int i => exact ⟨fun _ => ⟨.int i, by cases room <;> rfl, rfl⟩, nofun⟩
  | float x => exact ⟨fun _ => ⟨.float x, by cases room <;> rfl, rfl⟩, nofun⟩
  | str s =>
    refine ⟨fun _ => ⟨.str (utf8 s).text, by cases room <;> rfl, ?_⟩, nofun⟩
    rw [text_utf8]
    rfl
  | @list bound id items hid hne hvalid hcounts _ ih =>
    obtain ⟨hnot, hbelow⟩ := below_around haround hid
    exact restores_list hnot hne hvalid hcounts (fun room i hi => ih i hi hbelow room) room
  | @map bound id entries hid hvalid hnames hkeys _ ih =>
    obtain ⟨hnot, hbelow⟩ := below_around haround hid
    exact restores_map hnot hvalid hnames hkeys (fun room e he => ih e he hbelow room) room

/-- **Into a script and back.**  A value comes back as it was, but for the order of the entries of
its maps, and is equal to what comes back if it is equal to itself.  If it is nested too deeply, it
is refused. -/
theorem export_import (hv : v.Storable) (h : Heap) :
    (v.depth ≤ maxNesting → ∃ w,
      (h.import v).1.export (h.import v).2 = .done w (h.import v).2 ∧ v.Alike w ∧
        (v.beq v = true → v.beq w = true)) ∧
    (maxNesting < v.depth →
      (h.import v).1.export (h.import v).2 = Act.failHost tooDeep (h.import v).2) := by
  obtain ⟨-, hstands⟩ := Heap.lands hv h
  have hnone : ∀ id ∈ ([] : List Nat), (h.import v).2.tables.size ≤ id := nofun
  obtain ⟨hgive, hrefuse⟩ := hstands.restores hnone maxNesting
  refine ⟨fun hdepth => ?_, hrefuse⟩
  obtain ⟨w, hw, halike⟩ := hgive hdepth
  exact ⟨w, hw, halike, fun hself => hv.beq_of_alike hself halike⟩

/-- A map with an integer and a double, in as many lists. -/
def boxed : Nat → Value
  | 0 => .map [("1", .int 1), ("x", .float 1)]
  | n + 1 => .list [boxed n]

lemma depth_boxed (n : Nat) : (boxed n).depth = n + 1 := by
  induction n with
  | zero => rfl
  | succ n ih => simp [boxed, Value.depth, Value.depthItems, ih]

lemma storable_boxed (n : Nat) : (boxed n).Storable := by
  induction n with
  | zero =>
    refine .map (by decide) (by simp) fun p hp => ?_
    rcases List.mem_cons.1 hp with rfl | hp
    · exact .int 1
    · rw [List.mem_singleton.1 hp]
      exact .float 1
  | succ n ih =>
    refine .list (by simp) (by norm_num) ?_ ?_
    · cases n <;> simp [boxed]
    · intro v hv
      rw [List.mem_singleton.1 hv]
      exact ih

/-- Values that are nested as deeply as can be come back, and no others. -/
theorem export_import_boxed :
    (∃ w, (({} : Heap).import (boxed 127)).1.export (({} : Heap).import (boxed 127)).2 =
        .done w (({} : Heap).import (boxed 127)).2 ∧ (boxed 127).Alike w) ∧
      (({} : Heap).import (boxed 128)).1.export (({} : Heap).import (boxed 128)).2 =
        Act.failHost tooDeep (({} : Heap).import (boxed 128)).2 := by
  constructor
  · obtain ⟨w, hw, halike, -⟩ :=
      (export_import (storable_boxed 127) {}).1 (by rw [depth_boxed, maxNesting])
    exact ⟨w, hw, halike⟩
  · exact (export_import (storable_boxed 128) {}).2 (by rw [depth_boxed, maxNesting]; omega)

end BracketTemplate.Script
