import Mathlib
import BracketTemplate.Files.Writing
import BracketTemplate.Proofs.Files.Modification
import BracketTemplate.Proofs.Inclusion.Confined

/-!
# Changes of a tree

What a change of a tree does to the places that it is not about: nothing (`find?_set`,
`find?_of_remove`).  A `Change` is a step that files take while times go up.  A file is written,
with a time later than all that files had before; a directory is made where no file has been; or
what stands somewhere is removed.  By such steps a tree stays later than each of those that it came
from (`Change.later`).  What scripts do to files are such steps, when the time of the change is
later than all before (`change_of_write`).
-/

namespace BracketTemplate

/-! ## Values under keys -/

section Association

variable {α β : Type} [BEq α] [LawfulBEq α] [DecidableEq α]

lemma lookup_cons_eq_ite (entries : List (α × β)) (key other : α) (value : β) :
    ((key, value) :: entries).lookup other =
      if other = key then some value else entries.lookup other := by
  rw [List.lookup_cons]
  by_cases h : other = key
  · rw [if_pos h, beq_iff_eq.2 h]
  · rw [if_neg h, beq_eq_false_iff_ne.2 h]

lemma lookup_map_ite (entries : List (α × β)) (key other : α) (value : β) :
    (entries.map fun (k, v) => if k = key then (k, value) else (k, v)).lookup other =
      if other = key then (entries.lookup other).map fun _ => value else entries.lookup other := by
  induction entries with
  | nil => simp
  | cons entry rest ih =>
    obtain ⟨k, v⟩ := entry
    rw [List.map_cons]
    dsimp only
    by_cases hk : k = key
    · rw [if_pos hk, lookup_cons_eq_ite, ih, lookup_cons_eq_ite, ← hk]
      split <;> rfl
    · rw [if_neg hk, lookup_cons_eq_ite, ih, lookup_cons_eq_ite]
      by_cases hother : other = k
      · subst hother
        rw [if_pos rfl, if_neg hk, if_pos rfl]
      · rw [if_neg hother, if_neg hother]

/-- Putting a value under a key, in place of the one there or behind all others, changes what is
found under that key only. -/
lemma lookup_replace (entries : List (α × β)) (key other : α) (value : β) :
    (if entries.any (·.1 = key) then
        entries.map fun (k, v) => if k = key then (k, value) else (k, v)
      else entries ++ [(key, value)]).lookup other =
      if other = key then some value else entries.lookup other := by
  by_cases hother : other = key
  · subst hother
    rw [if_pos rfl]
    rcases hfound : entries.lookup other with _ | found
    · have habsent : entries.any (·.1 = other) = false := by
        refine List.any_eq_false.2 fun entry hmem => ?_
        have hne : other ≠ entry.1 := by
          simpa using List.lookup_eq_none_iff.1 hfound entry hmem
        simpa using hne.symm
      rw [habsent, if_neg (by simp), List.lookup_append, hfound, lookup_cons_eq_ite, if_pos rfl]
      rfl
    · obtain ⟨before, behind, rfl, -⟩ := List.lookup_eq_some_iff.1 hfound
      rw [if_pos (by simp), lookup_map_ite, if_pos rfl, hfound]
      rfl
  · rw [if_neg hother]
    split
    · rw [lookup_map_ite, if_neg hother]
    · rw [List.lookup_append, lookup_cons_eq_ite, if_neg hother]
      simp

/-- A key that is kept keeps its value. -/
lemma lookup_of_filter {entries : List (α × β)} (keep : α → Bool) {key : α} {value : β}
    (h : (entries.filter fun (k, _) => keep k).lookup key = some value) :
    entries.lookup key = some value := by
  induction entries with
  | nil => cases h
  | cons entry rest ih =>
    obtain ⟨k, v⟩ := entry
    rw [lookup_cons_eq_ite]
    rw [List.filter_cons] at h
    dsimp only at h
    split at h
    · rw [lookup_cons_eq_ite] at h
      split at h
      next hk => rw [if_pos hk, h]
      next hk => rw [if_neg hk, ih h]
    next hkeep =>
      have hkey : key ≠ k := by
        rintro rfl
        obtain ⟨before, behind, hentries, -⟩ := List.lookup_eq_some_iff.1 h
        have hmem : (key, value) ∈ rest.filter fun (k, _) => keep k := by simp [hentries]
        exact hkeep (List.mem_filter.1 hmem).2
      rw [if_neg hkey, ih h]

end Association

namespace FileTree

/-! ## Setting and removing -/

variable {tree now old : FileTree} {past : List FileTree}

lemma find?_set {place other : Place} {entry : FileEntry} (hother : other ≠ []) :
    (tree.set place entry).find? other =
      if other = place then some entry else tree.find? other := by
  rw [find?, if_neg hother, find?, if_neg hother]
  exact lookup_replace tree.entries place other entry

/-- What is there after something has been removed was there before. -/
lemma find?_of_remove {path : Path} (h : tree.remove path = .ok now) {place : Place}
    {entry : FileEntry} (hfind : now.find? place = some entry) : tree.find? place = some entry := by
  obtain ⟨⟨gone, found⟩, -, h⟩ := Source.bind_eq_ok.1 h
  cases h
  unfold find? at hfind ⊢
  split at hfind
  next hroot => rwa [if_pos hroot]
  next hroot =>
    rw [if_neg hroot]
    exact lookup_of_filter (fun p => !gone.isPrefixOf p) hfind

/-! ## Times that go up -/

/-- A bound of the times of all entries is one of the times of files. -/
lemma HasTime.lt {time bound : Int} (h : tree.HasTime time)
    (hbound : ∀ entry ∈ tree.entries, tree.timeOf entry.2 < bound) : time < bound := by
  obtain ⟨place, content, hfind⟩ := h
  unfold find? at hfind
  split at hfind
  · cases hfind
  · obtain ⟨before, behind, hentries, -⟩ := List.lookup_eq_some_iff.1 hfind
    exact hbound (place, .file content time) (by simp [hentries])

/-- A change by which times go up, of a tree behind some earlier ones. -/
inductive Change (past : List FileTree) (tree : FileTree) : FileTree → Prop
  /-- A file is written. -/
  | write {place : Place} {content : Bytes} {time : Int}
      (hafter : ∀ old ∈ tree :: past, ∀ before, old.HasTime before → before < time) :
      Change past tree (tree.set place (.file content time))
  /-- A directory is made. -/
  | makeDirectory {place : Place}
      (hfree : ∀ old ∈ tree :: past, ∀ content time, old.find? place ≠ some (.file content time)) :
      Change past tree (tree.set place .directory)
  /-- What a path leads to is removed, and all that is below it. -/
  | remove {path : Path} {now : FileTree} (h : tree.remove path = .ok now) : Change past tree now

/-- A change leaves the time at which directories were made. -/
lemma Change.made_eq (h : Change past tree now) : now.made = tree.made := by
  cases h with
  | write => rfl
  | makeDirectory => rfl
  | remove h =>
    obtain ⟨_, -, h⟩ := Source.bind_eq_ok.1 h
    cases h
    rfl

/-- **A tree stays later than those that it came from.** -/
theorem Change.later (h : Change past tree now) (hold : old ∈ tree :: past)
    (hlater : Later old tree) : Later old now := by
  intro place content modified entry hfind hentry
  have hroot : place ≠ [] := by
    rintro rfl
    simp [find?] at hfind
  have htime : now.timeOf entry = tree.timeOf entry := by
    cases entry with
    | file => rfl
    | directory => exact h.made_eq
  rw [htime]
  cases h with
  | @write written content' time hafter =>
    rw [find?_set hroot] at hentry
    split at hentry
    · cases hentry
      exact .inr (hafter old hold)
    · exact hlater place content modified entry hfind hentry
  | @makeDirectory made hfree =>
    rw [find?_set hroot] at hentry
    split at hentry
    next hplace =>
      subst hplace
      exact absurd hfind (hfree old hold content modified)
    · exact hlater place content modified entry hfind hentry
  | remove h => exact hlater place content modified entry hfind (find?_of_remove h hentry)

/-- **Scripts write by such changes.**  A file that is given another time, made empty or written to,
at a time later than all before, is a file written. -/
theorem change_of_write {time : Int}
    (hafter : ∀ old ∈ tree :: past, ∀ before, old.HasTime before → before < time) {path : Path}
    (h : tree.touch path time = .ok now ∨ tree.truncate path time = .ok now ∨
      ∃ place piece, tree.writeAt path place piece time = .ok now) : Change past tree now := by
  rcases h with h | h | ⟨place, piece, h⟩
  · obtain ⟨⟨place, _ | _⟩, -, h⟩ := Source.bind_eq_ok.1 h <;> cases h
    exact .write hafter
  · unfold truncate at h
    split at h
    · cases h
      exact .write hafter
    · cases h
    · obtain ⟨place, -, h⟩ := Source.bind_eq_ok.1 h
      cases h
      exact .write hafter
    · cases h
  · unfold writeAt at h
    split at h <;> cases h
    exact .write hafter

end FileTree

end BracketTemplate
