import Mathlib
import BracketTemplate.Proofs.Evaluation.Settling
import BracketTemplate.Proofs.Script.RoundTrip

/-!
# Tables that share and contain each other

A table of a script can stand in many others, and in itself.  Its conversion follows the values of a
table into the tables among them, and keeps the path of tables that it is in.  Here the same
conversion is written as one that does nothing but keep a log of these paths (`Heap.convert`), and
the machine comes to what that one comes to (`Machine.settles_exportWithin`).

A path has each table in the one before it, and none twice.  So a conversion that meets a table of
its path has found a table that contains itself, and one for which the path becomes too long has
found as many tables in each other.  By induction on the room that is left nothing else is refused
(`Val.export_ends`): that a table has been met before, beside the path, is of no account.
-/

namespace BracketTemplate.Script

/-! ## Tables in tables -/

variable {h : Heap} {t : Table} {k v : Val} {id inner outer : Nat}

/-- What is found under a key is met in a traversal, too. -/
lemma Table.exists_mem_pairs (hget : t.get k = v) (hv : v ≠ .nil) : ∃ k, (k, v) ∈ t.pairs := by
  unfold get at hget
  dsimp only at hget
  split at hget
  · next i _ =>
    have hitem : t.items[i]? = some v := by
      cases hi : t.items[i]? with
      | none =>
        rw [hi] at hget
        exact absurd hget.symm hv
      | some w =>
        rw [hi] at hget
        exact congrArg some hget
    exact ⟨_, mem_pairs_iff_holds.2 ⟨hv, .item hitem⟩⟩
  · split at hget
    · next e he =>
      subst hget
      exact ⟨_, mem_pairs_iff_holds.2 ⟨hv, .entry (List.mem_of_find?_eq_some he)⟩⟩
    · exact absurd hget.symm hv

namespace Heap

/-- A table is a value of another one. -/
def Holds (h : Heap) (outer inner : Nat) : Prop := ∃ k, (k, .table inner) ∈ (h.table outer).pairs

/-- A value is a table from which another one can be reached. -/
def Reaches (h : Heap) (v : Val) (id : Nat) : Prop :=
  ∃ root, v = .table root ∧ Relation.ReflTransGen h.Holds root id

/-- A table can be reached from itself through the values of tables. -/
def Circular (h : Heap) (id : Nat) : Prop := Relation.TransGen h.Holds id id

/-- Tables around each other, from the inside to the outside, none of them twice. -/
structure Nest (h : Heap) (v : Val) (path : List Nat) : Prop where
  nested : path.IsChain fun inner outer => h.Holds outer inner
  nodup : path.Nodup
  reached : ∀ id ∈ path, h.Reaches v id

end Heap

/-! ## A conversion that keeps a log -/

/-- Why a table is refused. -/
inductive Fault where
  | circular | nested
  deriving DecidableEq, Repr

/-- The report of a table that is refused. -/
def Fault.text : Fault → String
  | circular => "表中存在循环引用"
  | nested => tooDeep

/-- The paths that a computation has held, and what it has come to. -/
structure Log (α : Type) where
  paths : List (List Nat)
  result : Except Fault α

namespace Log

variable {α β : Type}

/-- Goes on when nothing has been refused. -/
def bind (l : Log α) (f : α → Log β) : Log β :=
  match l.result with
  | .ok a => ⟨l.paths ++ (f a).paths, (f a).result⟩
  | .error fault => ⟨l.paths, .error fault⟩

instance : Monad Log where
  pure a := ⟨[], .ok a⟩
  bind := bind

/-- Holds a path. -/
def hold (path : List Nat) : Log Unit := ⟨[path], .ok ()⟩

/-- Refuses a table. -/
def refuse (fault : Fault) : Log α := ⟨[], .error fault⟩

/-- What a conversion comes to when its log is forgotten. -/
def outcome (l : Log α) (h : Heap) : Outcome α :=
  match l.result with
  | .ok a => .done a h
  | .error fault => Act.failHost fault.text h

/-- Converts the items of a sequence. -/
def items (convert : Val → Log Value) : List Val → Log (List Value)
  | [] => pure []
  | v :: rest => do
    let x ← convert v
    return x :: (← items convert rest)

/-- Converts keys and values; `done` are the entries so far. -/
def entries (h : Heap) (convert : Val → Log Value) :
    List (Val × Val) → List (String × Value) → Log (List (String × Value))
  | [], done => pure done
  | (key, v) :: rest, done => do
    let x ← convert v
    entries h convert rest (Value.insert (h.textOf key) x done)

end Log

/-- The value of a template for a value of a script, with the paths that are held on the way;
`around` are the tables around the value, and `room` says how many more there may be. -/
def Heap.convert (h : Heap) : Nat → List Nat → Val → Log Value
  | room, around, .table id =>
    if around.contains id then .refuse .circular
    else
      match room with
      | 0 => .refuse .nested
      | room + 1 => do
        .hold (id :: around)
        let table := h.table id
        let convert := h.convert room (id :: around)
        if table.isSequence then
          return .list (← Log.items convert ((List.range' 1 table.length).map table.getInt))
        else return .map (← Log.entries h convert table.pairs [])
  | _, _, .nil => pure .nil
  | _, _, .bool b => pure (.bool b)
  | _, _, .int i => pure (.int i)
  | _, _, .float x => pure (.float x)
  | _, _, v => pure (.str (h.textOf v))

section Convert

variable {around : List Nat}

lemma Heap.convert_inside (hmem : id ∈ around) (room : Nat) :
    h.convert room around (.table id) = .refuse .circular := by
  unfold convert
  rw [if_pos (by simpa using hmem)]

lemma Heap.convert_full (hmem : id ∉ around) :
    h.convert 0 around (.table id) = .refuse .nested := by
  unfold convert
  rw [if_neg (by simpa using hmem)]

lemma Heap.convert_table (hmem : id ∉ around) (room : Nat) :
    h.convert (room + 1) around (.table id) = (do
      .hold (id :: around)
      if (h.table id).isSequence then
        return .list (← Log.items (h.convert room (id :: around))
          ((List.range' 1 (h.table id).length).map (h.table id).getInt))
      else
        return .map (← Log.entries h (h.convert room (id :: around)) (h.table id).pairs [])) := by
  rw [convert, if_neg (by simpa using hmem)]

/-- What is no table has a value at once, wherever it stands. -/
lemma Heap.convert_plain (hv : ∀ id, v ≠ .table id) (room : Nat) (around : List Nat) :
    ∃ x, h.convert room around v = pure x := by
  cases v with
  | table id => exact absurd rfl (hv id)
  | _ => exact ⟨_, by cases room <;> rfl⟩

end Convert

namespace Machine

variable {m : Machine} {α β : Type}

/-- One act after another settles as the computations do that keep the logs. -/
lemma settles_bind (act : Act α) {next : α → Act β} {l : Log α} {f : α → Log β}
    (hact : m.Settles (act h) (l.outcome h))
    (hnext : ∀ a, m.Settles (next a h) ((f a).outcome h)) :
    m.Settles ((act >>= next) h) ((l >>= f).outcome h) := by
  obtain ⟨paths, fault | a⟩ := l
  · exact Settles.bind_fail _ hact
  · exact Settles.bind hact (hnext a)

variable {convert : Val → Act Value} {log : Val → Log Value}
  (hconvert : ∀ v, m.Settles (convert v h) ((log v).outcome h))

include hconvert

/-- The items of a sequence settle when each of them does. -/
lemma settles_exportSequence (n i : Nat) :
    m.Settles (exportSequence id convert n i h)
      ((Log.items log ((List.range' i n).map (h.table id).getInt)).outcome h) := by
  induction n generalizing i with
  | zero => exact .refl m _
  | succ n ih =>
    rw [List.range'_succ, List.map_cons]
    refine settles_bind (convert ((h.table id).getInt i)) (hconvert _) fun x => ?_
    exact settles_bind (exportSequence id convert n (i + 1)) (ih (i + 1)) fun rest => .refl m _

/-- So do the entries of a map, when the texts of all values settle. -/
lemma settles_exportEntries (hstringify : ∀ v, m.Settles (stringify v h) (.done (h.textOf v) h))
    (pairs : List (Val × Val)) (done : List (String × Value)) :
    m.Settles (exportEntries convert pairs done h) ((Log.entries h log pairs done).outcome h) := by
  induction pairs generalizing done with
  | nil => exact .refl m _
  | cons pair pairs ih =>
    obtain ⟨key, v⟩ := pair
    refine (hstringify key).bind ?_
    exact settles_bind (convert v) (hconvert v) fun x => ih _

omit hconvert

/-- What is no table settles at once, or with its text. -/
lemma settles_plain (hstringify : ∀ v, m.Settles (stringify v h) (.done (h.textOf v) h))
    (hv : ∀ id, v ≠ .table id) (room : Nat) (around : List Nat) :
    m.Settles (exportWithin room around v h) ((h.convert room around v).outcome h) := by
  cases v with
  | table id => exact absurd rfl (hv id)
  | nil | bool | int | float | str => cases room <;> exact .refl m _
  | closure | builtin | native | thread | file | failure =>
    cases room <;> exact (hstringify _).bind (.refl m _)

/-- **A conversion settles**, and comes to what the one with a log comes to. -/
theorem settles_exportWithin (hstringify : ∀ v, m.Settles (stringify v h) (.done (h.textOf v) h))
    (room : Nat) (around : List Nat) (v : Val) :
    m.Settles (exportWithin room around v h) ((h.convert room around v).outcome h) := by
  induction room using Nat.strong_induction_on generalizing around v with
  | _ room ih =>
    by_cases htable : ∃ id, v = .table id
    · obtain ⟨id, rfl⟩ := htable
      by_cases hmem : id ∈ around
      · rw [exportWithin_inside hmem, h.convert_inside hmem]
        exact .refl m _
      · cases room with
        | zero =>
          rw [exportWithin_full hmem, h.convert_full hmem]
          exact .refl m _
        | succ room =>
          have hvalue := ih room (Nat.lt_succ_self room) (id :: around)
          rw [exportWithin_table hmem, h.convert_table hmem]
          by_cases hsequence : (h.table id).isSequence = true
          · rw [if_pos hsequence, if_pos hsequence]
            exact settles_bind (exportSequence id _ _ 1) (settles_exportSequence hvalue _ 1)
              fun items => .refl m _
          · rw [if_neg hsequence, if_neg hsequence]
            exact settles_bind (exportEntries _ _ [])
              (settles_exportEntries hvalue hstringify _ []) fun entries => .refl m _
    · exact settles_plain hstringify (not_exists.1 htable) room around

end Machine

/-! ## Why tables are refused -/

/-- A table is refused because one that can be reached contains itself, or because too many that can
be reached are nested in each other. -/
def Fault.Justified (h : Heap) (v : Val) : Fault → Prop
  | circular => ∃ id, h.Reaches v id ∧ h.Circular id
  | nested => ∃ chain : List Nat,
      chain.IsChain h.Holds ∧ (∀ id ∈ chain, h.Reaches v id) ∧ maxNesting < chain.length

/-- The paths of a log are nests that are not too deep, and what it refuses is refused with
reason. -/
structure Log.Sound {α : Type} (l : Log α) (h : Heap) (v : Val) : Prop where
  paths : ∀ path ∈ l.paths, h.Nest v path ∧ path.length ≤ maxNesting
  fault : ∀ fault, l.result = .error fault → fault.Justified h v

namespace Log

variable {α β : Type} {w : Val} {convert : Val → Log Value}

lemma sound_pure (a : α) : (pure a : Log α).Sound h v where
  paths := fun _ hpath => by cases hpath
  fault := fun _ hfault => by cases hfault

lemma sound_refuse {fault : Fault} (hfault : fault.Justified h v) :
    (refuse fault : Log α).Sound h v where
  paths := fun _ hpath => by cases hpath
  fault := fun _ heq => by
    cases heq
    exact hfault

lemma sound_hold {path : List Nat} (hpath : h.Nest v path) (hlength : path.length ≤ maxNesting) :
    (hold path).Sound h v where
  paths := fun _ hmem => by
    cases List.mem_singleton.1 hmem
    exact ⟨hpath, hlength⟩
  fault := fun _ hfault => by cases hfault

lemma Sound.bind {l : Log α} {f : α → Log β} (hl : l.Sound h v) (hf : ∀ a, (f a).Sound h v) :
    (l >>= f).Sound h v := by
  obtain ⟨paths, fault | a⟩ := l
  · exact ⟨hl.paths, fun fault' heq => hl.fault fault' (by cases heq; rfl)⟩
  · refine ⟨fun path hpath => ?_, (hf a).fault⟩
    rcases List.mem_append.1 hpath with hbefore | hafter
    · exact hl.paths path hbefore
    · exact (hf a).paths path hafter

lemma sound_items {vs : List Val} (hvs : ∀ w ∈ vs, (convert w).Sound h v) :
    (items convert vs).Sound h v := by
  induction vs with
  | nil => exact sound_pure _
  | cons w vs ih =>
    rw [List.forall_mem_cons] at hvs
    exact hvs.1.bind fun x => (ih hvs.2).bind fun rest => sound_pure _

lemma sound_entries {pairs : List (Val × Val)} (hpairs : ∀ p ∈ pairs, (convert p.2).Sound h v)
    (done : List (String × Value)) : (entries h convert pairs done).Sound h v := by
  induction pairs generalizing done with
  | nil => exact sound_pure _
  | cons pair pairs ih =>
    rw [List.forall_mem_cons] at hpairs
    exact hpairs.1.bind fun x => ih hpairs.2 _

end Log

namespace Heap

variable {path : List Nat}

/-- A table that is not on the path goes on with it. -/
lemma Nest.cons (hnest : h.Nest v path) (hmem : id ∉ path) (hreached : h.Reaches v id)
    (hhead : ∀ outer ∈ path.head?, h.Holds outer id) : h.Nest v (id :: path) where
  nested := List.isChain_cons.2 ⟨hhead, hnest.nested⟩
  nodup := List.nodup_cons.2 ⟨hmem, hnest.nodup⟩
  reached := List.forall_mem_cons.2 ⟨hreached, hnest.reached⟩

/-- A table that is on the path already contains itself. -/
lemma Nest.circular (hnest : h.Nest v path) (hmem : id ∈ path)
    (hhead : ∀ outer ∈ path.head?, h.Holds outer id) : h.Circular id := by
  cases path with
  | nil => cases hmem
  | cons outer path =>
    have hreach : Relation.ReflTransGen h.Holds id outer := by
      rcases List.mem_cons.1 hmem with rfl | hmem
      · exact .refl
      · exact hnest.nested.cons_induction (Relation.ReflTransGen h.Holds · outer) path
          (fun _ _ hholds hreach => .head hholds hreach) .refl id hmem
    exact .tail' hreach (hhead outer rfl)

/-- A path that is too long is a chain of that many tables. -/
lemma Nest.justified (hnest : h.Nest v path) (hlength : maxNesting < path.length) :
    Fault.nested.Justified h v := by
  refine ⟨path.reverse, List.isChain_reverse.2 hnest.nested, fun id hid => ?_, ?_⟩
  · exact hnest.reached id (List.mem_reverse.1 hid)
  · rwa [List.length_reverse]

/-- **What is refused is refused with reason**, and no path is too long: a value in the innermost
table of a nest is converted with as much room as the nest leaves. -/
theorem sound_convert (room : Nat) {around : List Nat} (hnest : h.Nest v around)
    (hroom : around.length + room = maxNesting) {w : Val}
    (hinner : ∀ id, w = .table id → h.Reaches v id ∧ ∀ outer ∈ around.head?, h.Holds outer id) :
    (h.convert room around w).Sound h v := by
  induction room using Nat.strong_induction_on generalizing around w with
  | _ room ih =>
    by_cases htable : ∃ id, w = .table id
    · obtain ⟨id, rfl⟩ := htable
      obtain ⟨hreached, hhead⟩ := hinner id rfl
      by_cases hmem : id ∈ around
      · rw [convert_inside hmem]
        exact Log.sound_refuse ⟨id, hreached, hnest.circular hmem hhead⟩
      · have hcons := hnest.cons hmem hreached hhead
        cases room with
        | zero =>
          rw [convert_full hmem]
          exact Log.sound_refuse (hcons.justified (by rw [List.length_cons]; omega))
        | succ room =>
          -- whatever stands in the table is converted within the longer path
          have hvalue : ∀ w, (∀ inner, w = .table inner → h.Holds id inner) →
              (h.convert room (id :: around) w).Sound h v := by
            intro w hw
            refine ih room (by omega) hcons (by rw [List.length_cons]; omega) fun inner heq => ?_
            obtain ⟨root, hroot, hreach⟩ := hreached
            refine ⟨⟨root, hroot, hreach.tail (hw inner heq)⟩, fun outer houter => ?_⟩
            cases houter
            exact hw inner heq
          rw [convert_table hmem]
          refine (Log.sound_hold hcons (by rw [List.length_cons]; omega)).bind fun _ => ?_
          split
          · refine (Log.sound_items fun w hw => ?_).bind fun items => Log.sound_pure _
            obtain ⟨i, -, hi⟩ := List.mem_map.1 hw
            refine hvalue w fun inner hinner => ?_
            exact Table.exists_mem_pairs (hi.trans hinner) nofun
          · refine (Log.sound_entries (fun p hp => ?_) []).bind fun entries => Log.sound_pure _
            refine hvalue p.2 fun inner hinner => ⟨p.1, ?_⟩
            rwa [← hinner]
    · obtain ⟨x, hx⟩ := convert_plain (h := h) (not_exists.1 htable) room around
      rw [hx]
      exact Log.sound_pure x

end Heap

/-! ## Conversions -/

/-- The conversion of a value with the paths that it holds. -/
def Val.exportLog (v : Val) (h : Heap) : Log Value := h.convert maxNesting [] v

variable {m : Machine}

/-- **The conversion of a value comes to an end, whatever tables are shared or contain each other.**
It never holds more than so many tables at a time, and each of these stands in the one before.  It
refuses a table for containing itself only if some table that can be reached does, and for the depth
only if too many tables that can be reached are values of one another in turn.  If there is neither,
it has a value and leaves the heap as it is.

The machine has room for the two calls that the text of a value takes. -/
theorem Val.export_ends (hstock : h.Stock) (hcalls : m.calls + 1 < Machine.maxCalls)
    (hnative : m.native + 2 < Machine.maxNative) (v : Val) :
    m.Settles (v.export h) ((v.exportLog h).outcome h) ∧
    (∀ path ∈ (v.exportLog h).paths, h.Nest v path ∧ path.length ≤ maxNesting) ∧
    ((v.exportLog h).result = .error .circular → ∃ id, h.Reaches v id ∧ h.Circular id) ∧
    ((v.exportLog h).result = .error .nested → ∃ chain : List Nat, chain.IsChain h.Holds ∧
      (∀ id ∈ chain, h.Reaches v id) ∧ maxNesting < chain.length) ∧
    ((∀ id, h.Reaches v id → ¬h.Circular id) →
      (∀ chain : List Nat, chain.IsChain h.Holds → (∀ id ∈ chain, h.Reaches v id) →
        chain.length ≤ maxNesting) →
      ∃ x, m.Settles (v.export h) (.done x h)) := by
  have hroom : m.HasRoom := ⟨by omega, by omega⟩
  have hsettles : m.Settles (v.export h) ((v.exportLog h).outcome h) :=
    Machine.settles_exportWithin
      (Machine.settles_stringify hstock hroom (Machine.hasRoom_push hcalls hnative)) maxNesting [] v
  have hsound : (v.exportLog h).Sound h v := by
    have hnil : h.Nest v [] := ⟨.nil, List.nodup_nil, fun _ hmem => by cases hmem⟩
    refine Heap.sound_convert maxNesting hnil (Nat.zero_add _) fun id hid => ⟨⟨id, hid, .refl⟩, ?_⟩
    intro outer houter
    cases houter
  refine ⟨hsettles, hsound.paths, hsound.fault .circular, hsound.fault .nested, ?_⟩
  intro hcircular hnested
  cases hresult : (v.exportLog h).result with
  | ok x =>
    rw [Log.outcome, hresult] at hsettles
    exact ⟨x, hsettles⟩
  | error fault =>
    have hjustified := hsound.fault fault hresult
    cases fault with
    | circular =>
      obtain ⟨id, hreached, hid⟩ := hjustified
      exact absurd hid (hcircular id hreached)
    | nested =>
      obtain ⟨chain, hchain, hreached, hlength⟩ := hjustified
      exact absurd (hnested chain hchain hreached) (Nat.not_le.2 hlength)

/-- A heap with a table that stands in another one twice, and a table that stands in itself. -/
def knotted : Heap where
  tables := #[Table.ofFields [("tostring", .builtin (.base .tostring)),
      ("__tostring", .builtin (.io .fileText))],
    Table.ofList [.int 1], Table.ofList [.table 1, .table 1],
    Table.ofFields [("self", .table 3)]]

lemma holds_knotted_two (hholds : knotted.Holds 2 id) : id = 1 := by
  have hpairs : (knotted.table 2).pairs = [(.int 1, .table 1), (.int 2, .table 1)] := by
    with_unfolding_all rfl
  obtain ⟨k, hk⟩ := hholds
  simp only [hpairs, List.mem_cons, Prod.mk.injEq, Val.table.injEq, List.not_mem_nil,
    or_false] at hk
  exact hk.elim And.right And.right

lemma not_holds_knotted_one : ¬knotted.Holds 1 id := by
  have hpairs : (knotted.table 1).pairs = [(.int 1, .int 1)] := by with_unfolding_all rfl
  rintro ⟨k, hk⟩
  rw [hpairs] at hk
  simp at hk

lemma reaches_knotted_two (hreaches : knotted.Reaches (.table 2) id) : id = 2 ∨ id = 1 := by
  obtain ⟨root, heq, hreach⟩ := hreaches
  cases heq
  induction hreach with
  | refl => exact .inl rfl
  | tail _ hholds ih =>
    rcases ih with rfl | rfl
    · exact .inr (holds_knotted_two hholds)
    · exact absurd hholds not_holds_knotted_one

/-- A table that is shared is converted, one that contains itself is not. -/
theorem Val.export_ends_knotted :
    let m : Machine := .ofAct (pure []) {}
    (∃ x, m.Settles ((Val.table 2).export knotted) (.done x knotted)) ∧
      ∃ id, knotted.Reaches (.table 3) id ∧ knotted.Circular id := by
  intro m
  have hstock : knotted.Stock := by
    refine ⟨fun id => ?_, Val.eq_builtin (by decide +kernel), Val.eq_builtin (by decide +kernel)⟩
    rcases id with _ | _ | _ | _ | id <;> rfl
  have hcalls : m.calls + 1 < Machine.maxCalls := by decide
  have hnative : m.native + 2 < Machine.maxNative := by decide
  obtain ⟨-, -, -, -, hshared⟩ := Val.export_ends hstock hcalls hnative (.table 2)
  obtain ⟨-, -, hself, -, -⟩ := Val.export_ends hstock hcalls hnative (.table 3)
  refine ⟨hshared ?_ ?_, hself (by with_unfolding_all rfl)⟩
  · intro id hreaches hcircular
    obtain ⟨inner, hholds, hback⟩ := Relation.TransGen.head'_iff.1 hcircular
    rcases reaches_knotted_two hreaches with rfl | rfl
    · obtain rfl := holds_knotted_two hholds
      rcases hback.cases_head with heq | ⟨_, hholds, -⟩
      · cases heq
      · exact not_holds_knotted_one hholds
    · exact not_holds_knotted_one hholds
  · intro chain hchain hreached
    -- from the second table on there is one step, and none behind it
    match chain, hchain with
    | [], _ | [_], _ | [_, _], _ => simp [maxNesting]
    | a :: b :: c :: _, .cons_cons hab (.cons_cons hbc _) =>
      exfalso
      rcases reaches_knotted_two (hreached a List.mem_cons_self) with rfl | rfl
      · obtain rfl := holds_knotted_two hab
        exact not_holds_knotted_one hbc
      · exact not_holds_knotted_one hab

end BracketTemplate.Script
