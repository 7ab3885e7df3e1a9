import Mathlib
import BracketTemplate.Proofs.Script.Results
import BracketTemplate.Proofs.Table.Border
import BracketTemplate.Proofs.Table.Layout
import BracketTemplate.Proofs.Value.Equality
import BracketTemplate.Script.Conversion

/-!
# What tables become

On the way out of a script a table becomes a list or a map.  In a list every index from `1` to the
length of the table has an item; in a map the text of every key has a value (`export_table`).

A sequence becomes a list, but not every list comes from a sequence.  The number of keys is compared
with the length, and by `Valid.length_pairs` these agree when as many indices up to the length are
without a value as there are other keys.  Then `nil` stands in the list for each gap, and the values
under the other keys are lost (`export_table_gapped`).
-/

namespace BracketTemplate.Script

variable {id i n : Nat} {convert : Val → Act Value} {h left : Heap}

/-! ## Sequences -/

namespace Table

variable {t : Table}

/-- A table is taken for a sequence when it has as many gaps up to its length as strays. -/
theorem Valid.isSequence_iff (h : t.Valid) :
    t.isSequence = true ↔ t.length ≠ 0 ∧ t.gaps t.length = t.strays t.length := by
  have hcount := h.length_pairs h.length_border.le
  have hdef : t.isSequence = true ↔ t.length ≠ 0 ∧ t.pairs.length = t.length := by
    simp [isSequence]
  rw [hdef]
  constructor
  · rintro ⟨hpos, hlength⟩
    exact ⟨hpos, by omega⟩
  · rintro ⟨hpos, hlength⟩
    exact ⟨hpos, by omega⟩

/-- So it is a sequence, or has gaps, and a stray for each of them. -/
theorem Valid.isSequence_iff_counts (h : t.Valid) : t.isSequence = true ↔
    (∃ n, 1 ≤ n ∧ t.Counts n) ∨
      (0 < t.gaps t.length ∧ t.gaps t.length = t.strays t.length) := by
  rw [h.isSequence_iff]
  constructor
  · rintro ⟨hpos, hsame⟩
    by_cases hgaps : t.gaps t.length = 0
    · exact .inl ⟨t.length, by omega,
        (h.counts_iff h.length_border.le).2 ⟨hgaps, hsame ▸ hgaps⟩⟩
    · exact .inr ⟨by omega, hsame⟩
  · rintro (⟨n, hpos, hcounts⟩ | ⟨hgaps, hsame⟩)
    · have hlength := hcounts.length_eq h
      obtain ⟨hgaps, hstrays⟩ := (h.counts_iff hcounts.le).1 hcounts
      exact ⟨by omega, by rw [hlength, hgaps, hstrays]⟩
    · refine ⟨fun hzero => ?_, hsame⟩
      rw [hzero] at hgaps
      cases hgaps

end Table

/-! ## One conversion after another -/

/-- The conversion of the item under an index, which is looked up when its turn comes. -/
def exportItem (id : Nat) (convert : Val → Act Value) (i : Nat) : Act Value := do
  convert (← Act.read fun h => (h.table id).getInt i)

/-- The conversion of a key and a value. -/
def exportEntry (convert : Val → Act Value) (pair : Val × Val) : Act (String × Value) := do
  let name ← stringify pair.1
  let x ← convert pair.2
  return (name, x)

/-- A sequence is converted item by item. -/
lemma gives_exportSequence {items : List Value} :
    (exportSequence id convert n i h).Gives items left ↔
      InTurn ((List.range' i n).map (exportItem id convert)) h items left := by
  induction n generalizing i h items left with
  | zero =>
    rw [exportSequence, gives_pure]
    constructor
    · rintro ⟨rfl, rfl⟩
      exact .nil _
    · intro hturn
      cases hturn
      exact ⟨rfl, rfl⟩
  | succ n ih =>
    rw [exportSequence, List.range'_succ, List.map_cons, inTurn_cons]
    simp only [gives_bind, exportItem, gives_read, gives_pure, ih]
    constructor
    · rintro ⟨v, _, ⟨rfl, rfl⟩, x, h', hx, rest, _, hrest, rfl, rfl⟩
      exact ⟨x, h', rest, ⟨_, _, ⟨rfl, rfl⟩, hx⟩, hrest, rfl⟩
    · rintro ⟨x, h', rest, ⟨v, _, ⟨rfl, rfl⟩, hx⟩, hrest, rfl⟩
      exact ⟨_, _, ⟨rfl, rfl⟩, x, h', hx, rest, left, hrest, rfl, rfl⟩

/-- The entries of a map are converted one by one, and written as they come. -/
lemma gives_exportEntries {pairs : List (Val × Val)} {done entries : List (String × Value)} :
    (exportEntries convert pairs done h).Gives entries left ↔
      ∃ results, InTurn (pairs.map (exportEntry convert)) h results left ∧
        entries = results.foldl (fun done (name, x) => Value.insert name x done) done := by
  induction pairs generalizing done h with
  | nil =>
    rw [exportEntries, gives_pure]
    constructor
    · rintro ⟨rfl, rfl⟩
      exact ⟨[], .nil _, rfl⟩
    · rintro ⟨results, hturn, rfl⟩
      cases hturn
      exact ⟨rfl, rfl⟩
  | cons pair rest ih =>
    obtain ⟨key, v⟩ := pair
    simp only [exportEntries, List.map_cons, inTurn_cons, gives_bind, exportEntry, gives_pure, ih]
    constructor
    · rintro ⟨name, h₁, hname, x, h₂, hx, results, hturn, rfl⟩
      exact ⟨(name, x) :: results,
        ⟨_, _, results, ⟨name, h₁, hname, x, h₂, hx, rfl, rfl⟩, hturn, rfl⟩, rfl⟩
    · rintro ⟨_, ⟨_, _, results, ⟨name, h₁, hname, x, _, hx, rfl, rfl⟩, hturn, rfl⟩, rfl⟩
      exact ⟨name, h₁, hname, x, _, hx, results, hturn, rfl⟩

/-- An entry in its turn.  Its key has a text on the heap that the entries in front of it have left,
its value is converted on what that leaves, and the entries behind it, which become `later`, go on
from there. -/
def EntryInTurn (convert : Val → Act Value) (pairs : List (Val × Val)) (h : Heap)
    (results : List (String × Value)) (left : Heap) (pair : Val × Val) (name : String) (y : Value)
    (later : List (String × Value)) : Prop :=
  ∃ front back done before between after,
    pairs = front ++ pair :: back ∧ results = done ++ (name, y) :: later ∧
    InTurn (front.map (exportEntry convert)) h done before ∧
    (stringify pair.1 before).Gives name between ∧ (convert pair.2 between).Gives y after ∧
    InTurn (back.map (exportEntry convert)) after later left

/-- Every entry has its turn. -/
lemma exists_entryInTurn {pairs : List (Val × Val)} {results : List (String × Value)}
    (hturn : InTurn (pairs.map (exportEntry convert)) h results left) {pair : Val × Val}
    (hpair : pair ∈ pairs) :
    ∃ name y later, EntryInTurn convert pairs h results left pair name y later := by
  obtain ⟨front, back, rfl⟩ := List.append_of_mem hpair
  rw [List.map_append, List.map_cons, inTurn_append] at hturn
  obtain ⟨done, _, before, hfront, hrest, rfl⟩ := hturn
  obtain ⟨⟨name, y⟩, after, later, hentry, hback, rfl⟩ := inTurn_cons.1 hrest
  obtain ⟨text, between, htext, hvalue⟩ := gives_bind.1 hentry
  obtain ⟨x, _, hx, heq, rfl⟩ := gives_bind.1 hvalue
  cases heq
  exact ⟨name, y, later, front, back, done, before, between, _, rfl, rfl, hfront, htext, hx, hback⟩

/-- There is a value under the name of an entry, its own one unless a later entry has the name. -/
lemma EntryInTurn.exists_lookup {pairs : List (Val × Val)} {results later : List (String × Value)}
    {pair : Val × Val} {name : String} {y : Value}
    (hentry : EntryInTurn convert pairs h results left pair name y later) :
    ∃ z, Value.lookup name (Value.ofEntries results) = some z ∧
      (name ∉ later.map (·.1) → z = y) := by
  obtain ⟨_, _, done, _, _, _, -, rfl, -⟩ := hentry
  exact Value.exists_lookup_ofEntries done later name y

/-! ## Tables -/

variable {room : Nat} {around : List Nat} {x : Value}

/-- A table that contains itself has no counterpart. -/
lemma exportWithin_inside (hmem : id ∈ around) :
    exportWithin room around (.table id) h = Act.failHost "表中存在循环引用" h := by
  have hcontains : around.contains id = true := by simpa using hmem
  unfold exportWithin
  rw [if_pos hcontains]

/-- A table that there is no room for has none either. -/
lemma exportWithin_full (hmem : id ∉ around) (h : Heap) :
    exportWithin 0 around (.table id) h = Act.failHost s!"表嵌套超过 {maxNesting} 层" h := by
  have hcontains : ¬around.contains id = true := by simpa using hmem
  unfold exportWithin
  rw [if_neg hcontains]

/-- Any other one is converted as a sequence or as a map, if there is room. -/
lemma exportWithin_table (hmem : id ∉ around) (room : Nat) (h : Heap) :
    exportWithin (room + 1) around (.table id) h =
      if (h.table id).isSequence then
        (exportSequence id (exportWithin room (id :: around)) (h.table id).length 1 h).bind
          fun items left => .done (.list items) left
      else
        (exportEntries (exportWithin room (id :: around)) (h.table id).pairs [] h).bind
          fun entries left => .done (.map entries) left := by
  have hcontains : ¬around.contains id = true := by simpa using hmem
  rw [exportWithin, if_neg hcontains]
  by_cases hsequence : (h.table id).isSequence = true
  · rw [if_pos hsequence]
    change (if (h.table id).isSequence = true then _ else _ : Act Value) h = _
    rw [if_pos hsequence]
    rfl
  · rw [if_neg hsequence]
    change (if (h.table id).isSequence = true then _ else _ : Act Value) h = _
    rw [if_neg hsequence]
    rfl

/-- What a table becomes when it becomes anything. -/
lemma gives_exportWithin :
    (exportWithin (room + 1) around (.table id) h).Gives x left ↔ id ∉ around ∧
      if (h.table id).isSequence then
        ∃ items, x = .list items ∧
          (exportSequence id (exportWithin room (id :: around)) (h.table id).length 1 h).Gives
            items left
      else
        ∃ entries, x = .map entries ∧
          (exportEntries (exportWithin room (id :: around)) (h.table id).pairs [] h).Gives
            entries left := by
  by_cases hmem : id ∈ around
  · rw [exportWithin_inside hmem]
    constructor
    · intro hgives
      exact absurd hgives not_gives_failHost
    · intro hgives
      exact absurd hmem hgives.1
  · rw [exportWithin_table hmem]
    by_cases hsequence : (h.table id).isSequence = true
    · rw [if_pos hsequence, if_pos hsequence, Outcome.gives_bind]
      constructor
      · rintro ⟨items, _, hitems, rfl, rfl⟩
        exact ⟨hmem, items, rfl, hitems⟩
      · rintro ⟨-, items, rfl, hitems⟩
        exact ⟨items, _, hitems, rfl, rfl⟩
    · rw [if_neg hsequence, if_neg hsequence, Outcome.gives_bind]
      constructor
      · rintro ⟨entries, _, hentries, rfl, rfl⟩
        exact ⟨hmem, entries, rfl, hentries⟩
      · rintro ⟨-, entries, rfl, hentries⟩
        exact ⟨entries, _, hentries, rfl, rfl⟩

variable {t : Table}

/-- **What a table becomes.**  It becomes a list when it is a sequence, and when it has gaps up to
its length and a stray for each of them; else it becomes a map.  The items of a list are what stands
under the indices from `1` to the length of the table, which is the number of items of a sequence.
A map has a value under the text that every key has in its turn: what the key's own value becomes,
unless a key behind it has the same text. -/
theorem export_table (hid : h.table id = t) (ht : t.Valid)
    (hx : (exportWithin (room + 1) around (.table id) h).Gives x left) :
    ((∃ items, x = .list items) ↔ (∃ n, 1 ≤ n ∧ t.Counts n) ∨
      (0 < t.gaps t.length ∧ t.gaps t.length = t.strays t.length)) ∧
    (∀ n, t.Counts n → t.length = n) ∧
    (∀ items, x = .list items → items.length = t.length ∧
      InTurn ((List.range' 1 t.length).map (exportItem id (exportWithin room (id :: around))))
        h items left) ∧
    ((∀ items, x ≠ .list items) → ∃ results,
      InTurn (t.pairs.map (exportEntry (exportWithin room (id :: around)))) h results left ∧
      x = .map (Value.ofEntries results) ∧
      ∀ k, k.IsKey → t.get k ≠ .nil → ∃ name y later z,
        EntryInTurn (exportWithin room (id :: around)) t.pairs h results left (k, t.get k) name y
          later ∧
        Value.lookup name (Value.ofEntries results) = some z ∧
        (name ∉ later.map (·.1) → z = y)) := by
  subst hid
  obtain ⟨-, hx⟩ := gives_exportWithin.1 hx
  refine ⟨?_, fun n hcounts => hcounts.length_eq ht, ?_, ?_⟩
  · rw [← ht.isSequence_iff_counts]
    split at hx
    · next hsequence =>
      obtain ⟨items, rfl, -⟩ := hx
      exact ⟨fun _ => hsequence, fun _ => ⟨items, rfl⟩⟩
    · next hsequence =>
      obtain ⟨entries, rfl, -⟩ := hx
      refine ⟨?_, fun h => absurd h hsequence⟩
      rintro ⟨_, heq⟩
      cases heq
  · rintro items rfl
    split at hx
    · obtain ⟨_, heq, hitems⟩ := hx
      cases heq
      have hturn := gives_exportSequence.1 hitems
      refine ⟨?_, hturn⟩
      rw [hturn.length_eq, List.length_map, List.length_range']
    · obtain ⟨_, heq, -⟩ := hx
      cases heq
  · intro hlist
    split at hx
    · obtain ⟨items, heq, -⟩ := hx
      exact absurd heq (hlist items)
    · obtain ⟨entries, rfl, hentries⟩ := hx
      obtain ⟨results, hturn, hfold⟩ := gives_exportEntries.1 hentries
      refine ⟨results, hturn, by rw [hfold]; rfl, fun k hk hvalue => ?_⟩
      obtain ⟨name, y, later, hentry⟩ :=
        exists_entryInTurn hturn (ht.mem_pairs.2 ⟨hvalue, hk, rfl⟩)
      obtain ⟨z, hlookup, hz⟩ := hentry.exists_lookup
      exact ⟨name, y, later, z, hentry, hlookup, hz⟩

/-- A heap with a sequence of two items. -/
def twoItems : Heap := { tables := #[Table.ofList [.int 4, .ofString "b"]] }

/-- A sequence of two items becomes a list of two. -/
theorem export_table_twoItems : ∃ items,
    (exportWithin maxNesting [] (.table 0) twoItems).Gives (.list items) twoItems ∧
      items = [.int 4, .str "b"] ∧ items.length = (twoItems.table 0).length := by
  have hgives : (exportWithin maxNesting [] (.table 0) twoItems).Gives
      (.list [.int 4, .str "b"]) twoItems := by
    have hsequence : (twoItems.table 0).isSequence = true := by decide +kernel
    have hlength : (twoItems.table 0).length = 2 := by decide +kernel
    refine gives_exportWithin.2 ⟨List.not_mem_nil, ?_⟩
    rw [if_pos hsequence, hlength]
    exact ⟨_, rfl, rfl, rfl⟩
  refine ⟨_, hgives, rfl, ?_⟩
  have hvalid : (twoItems.table 0).Valid := Table.valid_ofList (by norm_num)
  exact ((export_table rfl hvalid hgives).2.2.1 _ rfl).1

/-- A table whose array has a gap, and which has a text as a key. -/
def gapped : Table :=
  ((((Table.withRoom 3 1).setStr "x" (.int 5)).setInt 1 (.int 1)).setInt 2 .nil).setInt 3 (.int 3)

/-- What stands under the text is lost, and the gap becomes an item. -/
theorem export_table_gapped :
    gapped.getStr "x" = .int 5 ∧ (∀ n, ¬gapped.Counts n) ∧
      (Val.table 0).export { tables := #[gapped] } =
        .done (.list [.int 1, .nil, .int 3]) { tables := #[gapped] } := by
  have hvalue : gapped.getStr "x" = .int 5 := by with_unfolding_all rfl
  refine ⟨hvalue, fun n hcounts => ?_, ?_⟩
  · have hkey := (hcounts.iff (.ofString "x") (Val.isKey_ofString "x")).1
      (by rw [Table.getStr] at hvalue; rw [hvalue]; exact nofun)
    obtain ⟨i, -, -, heq⟩ := hkey
    cases heq
  · have hsequence : (({ tables := #[gapped] } : Heap).table 0).isSequence = true := by
      decide +kernel
    have hlength : (({ tables := #[gapped] } : Heap).table 0).length = 3 := by decide +kernel
    rw [Val.export, maxNesting, exportWithin_table List.not_mem_nil, if_pos hsequence, hlength]
    with_unfolding_all rfl

end BracketTemplate.Script
