import Mathlib
import BracketTemplate.Proofs.Files.Modification
import BracketTemplate.Proofs.Files.Below
import BracketTemplate.Proofs.Path.Canonical

/-!
# Proper trees

A tree of files as an operating system keeps it: every place holds one thing, everything stands in
directories, and what leads to a place are names that can be given to a file (`FileTree.Proper`).
In such a tree the places of files are what listing finds (`FileTree.Proper.mem_filesBelow`), and
the path of a file below a directory leads to it, unless it is too long
(`FileTree.Proper.resolve_join`).
-/

namespace BracketTemplate

/-- A name that can be given to a file: no more than 255 bytes, and none of them zero. -/
structure IsFileName (name : List Char) : Prop where
  isName : Path.IsName name
  noZero : '\x00' ∉ name
  short : Utf8.size name ≤ 255

instance (name : List Char) : Decidable (IsFileName name) :=
  decidable_of_iff (Path.IsName name ∧ '\x00' ∉ name ∧ Utf8.size name ≤ 255)
    ⟨fun h => ⟨h.1, h.2.1, h.2.2⟩, fun h => ⟨h.1, h.2, h.3⟩⟩

namespace FileTree

/-- Every place holds one thing and stands in a directory, and the names are those of files. -/
structure Proper (tree : FileTree) : Prop where
  nodup : (tree.entries.map (·.1)).Nodup
  names : ∀ entry ∈ tree.entries, entry.1 ≠ [] ∧ ∀ name ∈ entry.1, IsFileName name
  above : ∀ entry ∈ tree.entries, tree.find? entry.1.dropLast = some .directory
  cwd : ∀ name ∈ tree.cwd, Path.IsName name

instance (tree : FileTree) : Decidable tree.Proper :=
  decidable_of_iff ((tree.entries.map (·.1)).Nodup ∧
      (∀ entry ∈ tree.entries, entry.1 ≠ [] ∧ ∀ name ∈ entry.1, IsFileName name) ∧
      (∀ entry ∈ tree.entries, tree.find? entry.1.dropLast = some .directory) ∧
      ∀ name ∈ tree.cwd, Path.IsName name)
    ⟨fun h => ⟨h.1, h.2.1, h.2.2.1, h.2.2.2⟩, fun h => ⟨h.1, h.2, h.3, h.4⟩⟩

/-- The current directory is spelled canonically. -/
lemma cwdPath_eq_canonical (tree : FileTree) :
    tree.cwdPath = Path.canonical false tree.cwd false := by
  unfold cwdPath
  split
  next hnil => simp [hnil, Path.canonical, joinWith]
  next hne =>
    obtain ⟨name, rest, hcwd⟩ := List.exists_cons_of_ne_nil hne
    simp [hcwd, Path.canonical, joinWith_cons]

namespace Proper

variable {tree : FileTree} {place names : Place} {entry : FileEntry}

lemma noParent_cwdPath (h : tree.Proper) : tree.cwdPath.hasParentSegment = false := by
  rw [cwdPath_eq_canonical, Path.hasParentSegment_eq_false]
  exact (Path.grounded_canonical h.cwd).noParent

/-! ## What stands where -/

/-- What stands at a place is what the tree has an entry for. -/
lemma find?_eq_some (h : tree.Proper) (hne : place ≠ []) :
    tree.find? place = some entry ↔ (place, entry) ∈ tree.entries := by
  unfold find?
  rw [if_neg hne]
  constructor
  · intro hfound
    obtain ⟨before, behind, hentries, -⟩ := List.lookup_eq_some_iff.1 hfound
    rw [hentries]
    simp
  · intro hmem
    obtain ⟨before, behind, hentries⟩ := List.append_of_mem hmem
    refine List.lookup_eq_some_iff.2 ⟨before, behind, hentries, fun other hother => ?_⟩
    have hnodup := h.nodup
    rw [hentries, List.map_append, List.map_cons, List.nodup_append] at hnodup
    have hdistinct := hnodup.2.2 other.1 (List.mem_map_of_mem hother) place (by simp)
    simpa using fun heq => hdistinct heq.symm

/-- Above a place where something stands there are directories. -/
lemma find?_above (h : tree.Proper) (hfound : tree.find? (place ++ names) = some entry)
    (hne : names ≠ []) : tree.find? place = some .directory := by
  induction names using List.reverseRecOn generalizing entry with
  | nil => exact absurd rfl hne
  | append_singleton names name ih =>
    have hmem := (h.find?_eq_some (by simp)).1 hfound
    have hdirectory := h.above _ hmem
    rw [← List.append_assoc, List.dropLast_concat] at hdirectory
    by_cases hnames : names = []
    · rwa [hnames, List.append_nil] at hdirectory
    · exact ih hdirectory hnames

/-- The names that lead to something are names of files. -/
lemma isFileName (h : tree.Proper) (hfound : tree.find? place = some entry) :
    ∀ name ∈ place, IsFileName name := by
  by_cases hne : place = []
  · simp [hne]
  · exact (h.names _ ((h.find?_eq_some hne).1 hfound)).2

/-- **Names lead to what stands at their place.** -/
theorem walk_names (h : tree.Proper) (hplace : tree.find? place = some .directory)
    (hfound : tree.find? (place ++ names) = some entry) :
    tree.walk place .directory names = .ok (place ++ names, entry) := by
  induction names generalizing place with
  | nil =>
    rw [List.append_nil, hplace] at hfound
    cases hfound
    rw [List.append_nil, walk]
  | cons name rest ih =>
    have hname : IsFileName name := h.isFileName hfound name (by simp)
    have hblank : ¬(name = [] ∨ name = ['.']) := by
      rintro (rfl | rfl)
      · exact hname.isName.ne_nil rfl
      · cases hname.isName.names
    have hdots : name ≠ ['.', '.'] := by
      rintro rfl
      cases hname.isName.names
    rw [List.append_cons] at hfound ⊢
    have hnext : ∃ next, tree.find? (place ++ [name]) = some next ∧
        (rest ≠ [] → next = .directory) := by
      by_cases hrest : rest = []
      · exact ⟨entry, by rwa [hrest, List.append_nil] at hfound, fun hne => absurd hrest hne⟩
      · exact ⟨_, h.find?_above hfound hrest, fun _ => rfl⟩
    obtain ⟨next, hat, hdirectory⟩ := hnext
    rw [walk, if_neg hblank, if_neg hdots, if_neg (Nat.not_lt.2 hname.short), hat]
    show tree.walk (place ++ [name]) next rest = _
    rcases rest with _ | ⟨other, rest⟩
    · rw [List.append_nil, hat] at hfound
      cases hfound
      rw [List.append_nil]
      cases entry <;> rfl
    · obtain rfl := hdirectory (by simp)
      exact ih hat hfound

/-! ## Listing -/

/-- An entry is listed when it is that of a file below the directory. -/
lemma listed_iff {there : Place} :
    (match entry with
      | .file .. => if place.isPrefixOf there then some (there.drop place.length) else none
      | .directory => none) = some names ↔
      there = place ++ names ∧ ∃ content time, entry = .file content time := by
  cases entry with
  | directory => simp
  | file content time =>
    constructor
    · intro hlisted
      dsimp only at hlisted
      split at hlisted
      next hprefix =>
        obtain ⟨behind, rfl⟩ := List.isPrefixOf_iff_prefix.1 hprefix
        rw [List.drop_left] at hlisted
        cases hlisted
        exact ⟨rfl, content, time, rfl⟩
      · cases hlisted
    · rintro ⟨rfl, -⟩
      simp

lemma mem_filesBelow (h : tree.Proper) :
    names ∈ tree.filesBelow place ↔
      ∃ content time, tree.find? (place ++ names) = some (.file content time) := by
  unfold filesBelow
  rw [List.mem_filterMap]
  constructor
  · rintro ⟨⟨there, entry⟩, hentry, hlisted⟩
    obtain ⟨rfl, content, time, rfl⟩ := listed_iff.1 hlisted
    exact ⟨content, time, (h.find?_eq_some (h.names _ hentry).1).2 hentry⟩
  · rintro ⟨content, time, hfound⟩
    have hne : place ++ names ≠ [] := by
      intro hnil
      rw [hnil] at hfound
      cases hfound
    exact ⟨_, (h.find?_eq_some hne).1 hfound, listed_iff.2 ⟨rfl, content, time, rfl⟩⟩

/-- No file is listed twice. -/
lemma nodup_filesBelow (h : tree.Proper) (place : Place) : (tree.filesBelow place).Nodup := by
  have hentries : tree.entries.Pairwise fun a b => a.1 ≠ b.1 := List.pairwise_map.1 h.nodup
  refine List.Pairwise.filterMap _ (fun a b hdistinct names ha other hb hsame => ?_) hentries
  obtain ⟨there, entry⟩ := a
  obtain ⟨there', entry'⟩ := b
  subst hsame
  exact hdistinct ((listed_iff.1 ha).1.trans (listed_iff.1 hb).1.symm)

/-! ## Paths below a directory -/

variable {twice slash : Bool} {rootNames : List (List Char)}

/-- A directory stands at the place of its names. -/
lemma place_of_resolve (hnames : ∀ name ∈ rootNames, Path.IsName name)
    (hroot : tree.resolve (Path.canonical twice rootNames slash) = .ok (place, entry)) :
    place = rootNames ∧ tree.find? place = some entry := by
  have hgrounded : (Path.canonical twice rootNames slash).Grounded := Path.grounded_canonical hnames
  have hcomponents : (Path.canonical twice rootNames slash).components = _ :=
    Path.components_canonical hnames
  rw [Path.components_of_isAbsolute hgrounded.absolute] at hcomponents
  obtain ⟨-, -, hwalk⟩ := walk_of_resolve hgrounded.absolute hroot
  exact walk_top hgrounded.not_mem_segments (List.cons.inj hcomponents).2 hwalk

/-- **The path of what stands below a directory leads to it**, unless it is too long. -/
theorem resolve_join (h : tree.Proper) (hnames : ∀ name ∈ rootNames, Path.IsName name)
    (hroot : tree.resolve (Path.canonical twice rootNames slash) = .ok (place, .directory))
    (hfound : tree.find? (place ++ names) = some entry) (hne : names ≠ []) :
    tree.resolve ((Path.canonical twice rootNames slash).join ⟨joinWith '/' names⟩) =
      if 4096 ≤ Utf8.size ((Path.canonical twice rootNames slash).join ⟨joinWith '/' names⟩).chars
      then .error .nameTooLong else .ok (place ++ names, entry) := by
  obtain ⟨rfl, hplace⟩ := place_of_resolve hnames hroot
  have hfile := h.isFileName hfound
  have hall : ∀ name ∈ place ++ names, Path.IsName name :=
    fun name hname => (hfile name hname).isName
  rw [Path.canonical_join hnames hne fun name hname => hall name (by simp [hname])]
  set p := Path.canonical twice (place ++ names) false with hp
  have hgrounded : p.Grounded := Path.grounded_canonical hall
  have hzero : p.chars.contains '\x00' = false := by
    rw [List.contains_eq_mem, decide_eq_false_iff_not, hp, Path.canonical]
    intro hmem
    have hjoined : '\x00' ∈ joinWith '/' (place ++ names) := by
      cases twice <;> simpa using hmem
    rcases mem_joinWith hjoined with hslash | ⟨name, hname, hchar⟩
    · cases hslash
    · exact (hfile name hname).noZero hchar
  by_cases hlong : 4096 ≤ Utf8.size p.chars
  · rw [if_pos hlong, resolve, hzero, if_neg (by simp), if_neg hgrounded.chars_ne_nil,
      if_pos hlong]
  · have hreadable : p.Readable := by
      refine ⟨hgrounded, hzero, Nat.not_le.1 hlong, fun segment hsegment => ?_⟩
      rw [hp, Path.getLast?_canonical hall (by simp [hne])] at hsegment
      exact (hall segment (List.mem_of_getLast? hsegment)).names
    rw [if_neg hlong, tree.resolve_of_readable hreadable (Path.components_canonical hall)]
    have hstart : tree.find? [] = some .directory := by simp [find?]
    exact h.walk_names hstart hfound

end Proper

end FileTree

end BracketTemplate
