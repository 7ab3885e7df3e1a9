import Mathlib
import BracketTemplate.Proofs.Script.Import
import BracketTemplate.Script.Startup

/-!
# The global variables that a script finds

A script finds the builtin functions among its global variables, and then the bindings and the
registered functions are put there, too.  Each of them takes its own name and leaves all others:
what stands under a name that is neither bound nor registered is what stood there from the start
(`Heap.sets_start`).
-/

namespace BracketTemplate.Script

/-- The builtin function that a value is, if it is one. -/
def Val.builtin? : Val → Option Builtin
  | builtin f => some f
  | _ => none

lemma Val.eq_builtin {v : Val} {f : Builtin} (h : v.builtin? = some f) : v = .builtin f := by
  cases v <;> cases h
  rfl

namespace Heap

variable {h h' : Heap} {names : List String}

/-! ## Bringing values in -/

/-- A heap with more in it, and with the same global variables and files. -/
structure Kept (h h' : Heap) : Prop where
  grown : h.Grown h'
  globals : h'.globals = h.globals
  files : h'.files = h.files

lemma Kept.refl (h : Heap) : h.Kept h := ⟨.refl h, rfl, rfl⟩

lemma Kept.trans {h₁ h₂ h₃ : Heap} (first : h₁.Kept h₂) (second : h₂.Kept h₃) : h₁.Kept h₃ :=
  ⟨first.grown.trans second.grown, second.globals.trans first.globals,
    second.files.trans first.files⟩

lemma kept_newTable (h : Heap) (t : Table) : h.Kept (h.newTable t).2 :=
  ⟨grown_newTable h t, rfl, rfl⟩

mutual

/-- A value that is brought into a heap leaves what is there. -/
lemma kept_import (h : Heap) : (v : Value) → h.Kept (h.import v).2
  | .nil | .bool _ | .int _ | .float _ | .str _ => .refl h
  | .list items => (kept_importItems h _ 1 items).trans (kept_newTable _ _)
  | .map entries => (kept_importEntries h _ entries).trans (kept_newTable _ _)

lemma kept_importItems (h : Heap) (t : Table) (i : Nat) :
    (items : List Value) → h.Kept (h.importItems t i items).2
  | [] => .refl h
  | v :: rest => (kept_import h v).trans (kept_importItems _ _ _ rest)

lemma kept_importEntries (h : Heap) (t : Table) :
    (entries : List (String × Value)) → h.Kept (h.importEntries t entries).2
  | [] => .refl h
  | (_, v) :: rest => (kept_import h v).trans (kept_importEntries _ _ rest)

end

/-! ## Setting global variables -/

/-- A heap with a sound table of global variables and with the standard files. -/
structure Ready (h : Heap) : Prop where
  inside : h.globals < h.tables.size
  valid : (h.table h.globals).Valid
  files : h.files = Files.standardFiles.toArray

/-- The global variables of certain names may have been set, no others. -/
structure Sets (names : List String) (h h' : Heap) : Prop where
  ready : h'.Ready
  other : ∀ name, name ∉ names → h'.globalVar name = h.globalVar name

lemma Sets.refl (hready : h.Ready) : Sets [] h h := ⟨hready, fun _ _ => rfl⟩

lemma Sets.trans {more : List String} {h₁ h₂ h₃ : Heap} (first : Sets names h₁ h₂)
    (second : Sets more h₂ h₃) : Sets (names ++ more) h₁ h₃ where
  ready := second.ready
  other := fun name hname => by
    rw [List.mem_append, not_or] at hname
    exact (second.other name hname.2).trans (first.other name hname.1)

lemma Kept.sets (hkept : h.Kept h') (hready : h.Ready) : Sets [] h h' := by
  have htable : h'.table h'.globals = h.table h.globals := by
    rw [hkept.globals]
    exact hkept.grown.table _ hready.inside
  refine ⟨⟨?_, htable ▸ hready.valid, hkept.files.trans hready.files⟩, fun name _ => ?_⟩
  · rw [hkept.globals]
    exact hready.inside.trans_le hkept.grown.size
  · rw [globalVar, globalVar, htable]

/-- Setting a global variable leaves all others. -/
lemma sets_setGlobal (hready : h.Ready) (name : String) (v : Val) :
    Sets [name] h (h.setGlobal name v) := by
  have htable : (h.setGlobal name v).table h.globals = (h.table h.globals).setStr name v := by
    simp [setGlobal, onTable, table, hready.inside, Array.getElem_modify_self]
  have hnil : Val.ofString name ≠ .nil := by simp [Val.ofString]
  have hwrites := hready.valid.writes_set hnil (by simp [Val.ofString]) v
  refine ⟨⟨?_, ?_, hready.files⟩, fun other hother => ?_⟩
  · simpa [setGlobal, onTable] using hready.inside
  · rw [show (h.setGlobal name v).globals = h.globals from rfl, htable]
    exact hwrites.valid
  · have hne : Val.ofString other ≠ Val.ofString name := fun heq =>
      hother (List.mem_singleton.2 (utf8_injective (Val.str.inj heq)))
    rw [globalVar, show (h.setGlobal name v).globals = h.globals from rfl, htable]
    exact hwrites.get_other _ (Val.isKey_ofString other) hne

lemma sets_withBindings (hready : h.Ready) (bindings : List (String × Value)) :
    Sets (bindings.map (·.1)) h (h.withBindings bindings) := by
  induction bindings generalizing h with
  | nil => exact .refl hready
  | cons binding bindings ih =>
    obtain ⟨name, v⟩ := binding
    have himport := (kept_import h v).sets hready
    have hset := sets_setGlobal himport.ready name (h.import v).1
    exact (himport.trans hset).trans (ih hset.ready)

lemma sets_withFunctions (hready : h.Ready) (names : List String) :
    Sets names h (h.withFunctions names) := by
  induction names generalizing h with
  | nil => exact .refl hready
  | cons name names ih =>
    have hset := sets_setGlobal hready name (.builtin (.host (.registered name)))
    exact hset.trans (ih hset.ready)

/-! ## The start -/

/-- A table is sound when its keys are different texts and stand at different places. -/
lemma valid_of_texts {t : Table} (hitems : t.items = #[])
    (hkeys : ∀ e ∈ t.entries, e.key.isStr = true)
    (hdistinct : (t.entries.map (·.key.toText?)).Nodup) (hplaces : (t.entries.map (·.place)).Nodup)
    (hbelow : ∀ e ∈ t.entries, e.place < t.capacity + t.entries.length)
    (hfree : t.free ≤ t.capacity) :
    t.Valid where
  size := by simp [hitems]
  keys := fun e he => by
    have hkey := hkeys e he
    cases htext : e.key <;> rw [htext] at hkey <;> cases hkey
    exact ⟨Val.isKey_str _, rfl⟩
  distinct := List.Nodup.of_map Val.toText? (by rwa [List.map_map])
  places := hplaces
  below := hbelow
  free := hfree

lemma ready_initial (root : Path) : (initial root).Ready := by
  -- the root is of no account for the global variables
  have htable : (initial root).table (initial root).globals =
      (initial ⟨[]⟩).table (initial ⟨[]⟩).globals := rfl
  have hinside : (initial ⟨[]⟩).globals < (initial ⟨[]⟩).tables.size := by decide +kernel
  refine ⟨hinside, ?_, rfl⟩
  rw [htable]
  exact valid_of_texts rfl (by decide +kernel) (by decide +kernel) (by decide +kernel)
    (by decide +kernel) (by decide +kernel)

/-- The root is of no account for the global variables. -/
lemma globalVar_initial_eq (root : Path) (name : String) :
    (initial root).globalVar name = (initial ⟨[]⟩).globalVar name := rfl

lemma builtin?_host : ∀ p ∈ Host.names,
    ((initial ⟨[]⟩).globalVar p.1).builtin? = some (.host p.2) := by decide +kernel

lemma builtin?_tostring :
    ((initial ⟨[]⟩).globalVar "tostring").builtin? = some (.base .tostring) := by decide +kernel

/-- The functions that reach the template are there from the start. -/
lemma globalVar_host (root : Path) {name : String} {f : HostFunction} (h : (name, f) ∈ Host.names) :
    (initial root).globalVar name = .builtin (.host f) :=
  (globalVar_initial_eq root name).trans (Val.eq_builtin (builtin?_host (name, f) h))

/-- So is the function that makes texts of values. -/
lemma globalVar_tostring (root : Path) :
    (initial root).globalVar "tostring" = .builtin (.base .tostring) :=
  (globalVar_initial_eq root "tostring").trans (Val.eq_builtin builtin?_tostring)

/-- **Bindings and registered functions take their own names**, and leave all others. -/
theorem sets_start (root : Path) (bindings : List (String × Value)) (functions : List String) :
    Sets (bindings.map (·.1) ++ functions) (initial root)
      (((initial root).withBindings bindings).withFunctions functions) :=
  have hbindings := sets_withBindings (ready_initial root) bindings
  hbindings.trans (sets_withFunctions hbindings.ready functions)

end Heap

end BracketTemplate.Script
