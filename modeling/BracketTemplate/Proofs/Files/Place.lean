import Mathlib
import BracketTemplate.Files.Tree
import BracketTemplate.Proofs.Path.Join

/-!
# Files and their places

Where a path leads in a tree without links.  A grounded path that can be read leads to the place
that its components name, its last segment is a name, and the place is one of those of the files of
the tree (`readText_file`).  Two grounded paths that can be read lead to one place only when they
are spellings of one path (`same_of_placeOf`), so distinct paths are distinct files, and there are
no more of them than the tree has files (`length_le_files`).
-/

namespace BracketTemplate

namespace FileTree

lemma foldl_names {step : Place → Path.Component → Place}
    (h : ∀ place name, step place (.name name) = place ++ [name]) (place : Place)
    (names : List (List Char)) :
    (names.map Path.Component.name).foldl step place = place ++ names := by
  induction names generalizing place with
  | nil => simp
  | cons name names ih => simp [h, ih]

/-- The place of a path of names. -/
lemma placeOf_names {p : Path} {names : List (List Char)}
    (h : p.components = .root :: names.map .name) (tree : FileTree) : tree.placeOf p = names := by
  rw [placeOf, h, List.foldl_cons]
  exact foldl_names (fun _ _ => rfl) [] names

/-- Walking goes through the names of the segments.  It leads to what stands at the place that it
arrives at, and where that is a file, the last segment is one of the names. -/
lemma walk_found {tree : FileTree} {segments : List (List Char)} {place place' : Place}
    {entry found : FileEntry} (hentry : tree.find? place = some entry)
    (hparent : ['.', '.'] ∉ segments)
    (h : tree.walk place entry segments = .ok (place', found)) :
    tree.find? place' = some found ∧
      (∃ names : List (List Char), place' = place ++ names ∧
        segments.filterMap Path.Component.ofSegment = names.map .name) ∧
      ∀ content modified, found = .file content modified →
        ∀ segment ∈ segments.getLast?, Path.Component.ofSegment segment = some (.name segment) := by
  induction segments generalizing place entry with
  | nil =>
    cases h
    exact ⟨hentry, ⟨[], by simp⟩, by simp⟩
  | cons segment rest ih =>
    cases entry with
    | file content' modified' => cases h
    | directory =>
      simp only [List.mem_cons, not_or] at hparent
      have hdots : segment ≠ ['.', '.'] := fun hsegment => hparent.1 hsegment.symm
      unfold walk at h
      split at h
      · next hblank =>
        -- a blank segment: something has to follow it
        obtain ⟨hfile, ⟨names, hplace, hnames⟩, hlast⟩ := ih hentry hparent.2 h
        have hnone : Path.Component.ofSegment segment = none := Path.ofSegment_of_blank hblank
        refine ⟨hfile, ⟨names, hplace, by rw [List.filterMap_cons_none hnone, hnames]⟩, ?_⟩
        rintro content modified rfl
        cases rest with
        | nil => cases h
        | cons next rest => simpa using hlast content modified rfl
      · next hblank =>
        split at h
        · cases h
        · split at h
          · cases h
          · next met hmet =>
            obtain ⟨hfile, ⟨names, hplace, hnames⟩, hlast⟩ := ih hmet hparent.2 h
            have hname : Path.Component.ofSegment segment = some (.name segment) :=
              Path.ofSegment_of_ne hblank hdots
            refine ⟨hfile, ⟨segment :: names, by simp [hplace], ?_⟩, ?_⟩
            · rw [List.filterMap_cons_some hname, hnames, List.map_cons]
            · rintro content modified rfl
              cases rest with
              | nil => simpa using hname
              | cons next rest => simpa using hlast content modified rfl

/-- A walk from the top ends at the names of its segments. -/
lemma walk_top {tree : FileTree} {segments names : List (List Char)} {place : Place}
    {found : FileEntry} (hparent : ['.', '.'] ∉ segments)
    (hnames : segments.filterMap Path.Component.ofSegment = names.map .name)
    (h : tree.walk [] .directory segments = .ok (place, found)) :
    place = names ∧ tree.find? place = some found := by
  obtain ⟨hfound, ⟨others, hplace, hothers⟩, -⟩ := walk_found (by simp [find?]) hparent h
  refine ⟨?_, hfound⟩
  rw [hplace, List.nil_append]
  exact List.map_injective_iff.2 (fun a b hab => by simpa using hab) (hothers.symm.trans hnames)

/-- What an absolute path leads to is found by a walk from the top. -/
lemma walk_of_resolve {tree : FileTree} {p : Path} (hp : p.isAbsolute = true)
    {found : Place × FileEntry} (h : tree.resolve p = .ok found) :
    p.chars.contains '\x00' = false ∧ Utf8.size p.chars < 4096 ∧
      tree.walk [] .directory p.segments = .ok found := by
  unfold resolve at h
  split at h
  · cases h
  next hzero =>
  split at h
  · cases h
  split at h
  · cases h
  next hshort =>
  exact ⟨by simpa using hzero, Nat.not_le.1 hshort, h⟩

lemma mem_files {tree : FileTree} {place : Place} {content : Bytes} {modified : Int}
    (h : tree.find? place = some (.file content modified)) : place ∈ tree.files := by
  unfold find? at h
  split at h
  · cases h
  · obtain ⟨before, behind, hentries, -⟩ := List.lookup_eq_some_iff.1 h
    refine List.mem_filterMap.2 ⟨(place, .file content modified), ?_, by simp⟩
    simp [hentries]

/-- **A path that can be read is that of a file.** -/
theorem readText_file {tree : FileTree} {p : Path} {text : List Char} (hp : p.Grounded)
    (h : tree.readText p = .ok text) :
    tree.placeOf p ∈ tree.files ∧
      ∃ segment, p.segments.getLast? = some segment ∧
        Path.Component.ofSegment segment = some (.name segment) := by
  have hresolve : ∃ place content modified,
      tree.resolve p = .ok (place, .file content modified) := by
    unfold readText readBytes at h
    rcases hr : tree.resolve p with fault | ⟨place, _ | _⟩ <;> rw [hr] at h
    · cases h
    · exact ⟨_, _, _, rfl⟩
    · cases h
  obtain ⟨place, content, modified, hresolve⟩ := hresolve
  obtain ⟨-, -, hwalk⟩ := walk_of_resolve hp.absolute hresolve
  have hparent : ['.', '.'] ∉ p.segments := fun hmem =>
    hp.noParent (List.mem_filterMap.2 ⟨_, hmem, rfl⟩)
  obtain ⟨hfile, ⟨names, hplace, hnames⟩, hlast⟩ := walk_found (by simp [find?]) hparent hwalk
  have hcomponents : p.components = .root :: names.map .name := by
    rw [Path.components_of_isAbsolute hp.absolute, ← hnames]
    rfl
  rw [List.nil_append] at hplace
  refine ⟨?_, ?_⟩
  · rw [placeOf_names hcomponents, ← hplace]
    exact mem_files hfile
  · obtain ⟨segment, hsegment⟩ := Option.isSome_iff_exists.1
      (List.getLast?_isSome.2 (splitAt_ne_nil '/' p.chars))
    exact ⟨segment, hsegment, hlast content modified rfl segment hsegment⟩

/-- One place has one grounded path, up to its spelling. -/
lemma same_of_placeOf {tree : FileTree} {p q : Path} (hp : p.Grounded) (hq : q.Grounded)
    (h : tree.placeOf p = tree.placeOf q) : p.same q = true := by
  obtain ⟨names, hnames⟩ := hp.components
  obtain ⟨others, hothers⟩ := hq.components
  rw [placeOf_names hnames, placeOf_names hothers] at h
  rw [Path.same_iff, hnames, hothers, h]

/-- Paths of different files are no more than there are files. -/
theorem length_le_files {tree : FileTree} {paths : List Path}
    (hgrounded : ∀ p ∈ paths, p.Grounded ∧ ∃ text, tree.readText p = .ok text)
    (hdistinct : paths.Pairwise fun p q => p.same q = false) :
    paths.length ≤ tree.files.length := by
  have hnodup : (paths.map tree.placeOf).Nodup := by
    refine List.pairwise_map.2 (hdistinct.imp_of_mem fun {p q} hp hq hpq hplace => ?_)
    rw [same_of_placeOf (hgrounded p hp).1 (hgrounded q hq).1 hplace] at hpq
    cases hpq
  have hsubset : paths.map tree.placeOf ⊆ tree.files := by
    intro place hplace
    obtain ⟨p, hp, rfl⟩ := List.mem_map.1 hplace
    obtain ⟨hp, text, htext⟩ := hgrounded p hp
    exact (readText_file hp htext).1
  simpa using (hnodup.subperm hsubset).length_le

end FileTree

end BracketTemplate
