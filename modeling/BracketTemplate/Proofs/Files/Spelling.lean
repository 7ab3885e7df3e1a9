import Mathlib
import BracketTemplate.Proofs.Files.Place

/-!
# Spellings of a path

Two texts can spell one path, and a tree looks at the text.  Blank segments and segments `.` are
passed over as long as they are not the last, so a grounded path leads where its names lead
(`resolve_of_readable`).  What the text still decides is whether a file can be read by it at all,
and that no tree has a say in: a spelling is `Readable` or is not.  So readable spellings of one
path lead to the same in every tree (`resolve_same`).
-/

namespace BracketTemplate

namespace Path

/-- A spelling that a file can be read by: it is grounded, not too long, and ends with a name. -/
structure Readable (p : Path) : Prop where
  grounded : p.Grounded
  noZero : p.chars.contains '\x00' = false
  short : Utf8.size p.chars < 4096
  last : ∀ segment ∈ p.segments.getLast?, Component.ofSegment segment = some (.name segment)

lemma Grounded.chars_ne_nil {p : Path} (hp : p.Grounded) : p.chars ≠ [] := by
  intro hnil
  have habsolute := hp.absolute
  rw [isAbsolute, hnil] at habsolute
  cases habsolute

lemma Grounded.not_mem_segments {p : Path} (hp : p.Grounded) : ['.', '.'] ∉ p.segments :=
  fun hmem => hp.noParent (List.mem_filterMap.2 ⟨_, hmem, rfl⟩)

end Path

namespace FileTree

/-- Walking goes by the names of the segments, when the last segment is a name. -/
lemma walk_names (tree : FileTree) {segments names : List (List Char)} {place : Place}
    {entry : FileEntry} (hparent : ['.', '.'] ∉ segments)
    (hlast : ∀ segment ∈ segments.getLast?, Path.Component.ofSegment segment = some (.name segment))
    (hnames : segments.filterMap Path.Component.ofSegment = names.map .name) :
    tree.walk place entry segments = tree.walk place entry names := by
  induction segments generalizing place entry names with
  | nil =>
    obtain rfl : names = [] := by simpa using hnames.symm
    rfl
  | cons segment rest ih =>
    simp only [List.mem_cons, not_or] at hparent
    have hlastRest : ∀ segment ∈ rest.getLast?,
        Path.Component.ofSegment segment = some (.name segment) := by
      intro last hmem
      refine hlast last ?_
      cases rest with
      | nil => cases hmem
      | cons next rest => simpa using hmem
    by_cases hblank : segment = [] ∨ segment = ['.']
    · -- a blank segment is not the last one, so some name follows it
      have hnone : Path.Component.ofSegment segment = none := Path.ofSegment_of_blank hblank
      rw [List.filterMap_cons_none hnone] at hnames
      cases entry with
      | directory =>
        rw [walk, if_pos hblank]
        exact ih hparent.2 hlastRest hnames
      | file content modified =>
        obtain ⟨last, hmem⟩ : ∃ last, last ∈ rest.getLast? := by
          cases rest with
          | nil =>
            have := hlast segment rfl
            rw [hnone] at this
            cases this
          | cons next rest => exact ⟨_, List.getLast?_eq_some_getLast (by simp)⟩
        have hname : Path.Component.name last ∈ names.map Path.Component.name := by
          rw [← hnames]
          exact List.mem_filterMap.2 ⟨last, List.mem_of_getLast? hmem, hlastRest last hmem⟩
        cases names with
        | nil => cases hname
        | cons name names => rfl
    · have hdots : segment ≠ ['.', '.'] := fun hsegment => hparent.1 hsegment.symm
      have hname : Path.Component.ofSegment segment = some (.name segment) :=
        Path.ofSegment_of_ne hblank hdots
      rw [List.filterMap_cons_some hname] at hnames
      obtain ⟨name, others, rfl, hhead, hothers⟩ := List.map_eq_cons_iff.1 hnames.symm
      obtain rfl : name = segment := by simpa using hhead
      cases entry with
      | file content modified => rfl
      | directory =>
        rw [walk, walk, if_neg hblank, if_neg hblank, if_neg hdots, if_neg hdots]
        split
        · rfl
        · cases tree.find? (place ++ [name]) with
          | none => rfl
          | some found => exact ih hparent.2 hlastRest hothers.symm

/-- A readable spelling leads where the names of its components lead. -/
lemma resolve_of_readable (tree : FileTree) {p : Path} (hp : p.Readable)
    {names : List (List Char)} (hnames : p.components = .root :: names.map .name) :
    tree.resolve p = tree.walk [] .directory names := by
  have hparts : p.segments.filterMap Path.Component.ofSegment = names.map .name := by
    rw [Path.components_of_isAbsolute hp.grounded.absolute] at hnames
    exact (List.cons.inj hnames).2
  rw [resolve, hp.noZero, if_neg (by simp), if_neg hp.grounded.chars_ne_nil,
    if_neg (Nat.not_le.2 hp.short), hp.grounded.absolute, if_pos rfl]
  exact tree.walk_names hp.grounded.not_mem_segments hp.last hparts

/-- **Readable spellings of one path lead to the same**, in every tree. -/
theorem resolve_same (tree : FileTree) {p q : Path} (hp : p.Readable) (hq : q.Readable)
    (h : p.same q = true) : tree.resolve p = tree.resolve q := by
  obtain ⟨names, hnames⟩ := hp.grounded.components
  rw [tree.resolve_of_readable hp hnames,
    tree.resolve_of_readable hq ((Path.same_iff.1 h).symm.trans hnames)]

lemma readBytes_same (tree : FileTree) {p q : Path} (hp : p.Readable) (hq : q.Readable)
    (h : p.same q = true) : tree.readBytes p = tree.readBytes q := by
  rw [readBytes, readBytes, tree.resolve_same hp hq h]

/-- What it takes to read bytes. -/
lemma readBytes_eq_ok {tree : FileTree} {p : Path} {content : Bytes} :
    tree.readBytes p = .ok content ↔
      ∃ place modified, tree.resolve p = .ok (place, .file content modified) := by
  unfold readBytes
  rcases tree.resolve p with fault | ⟨place, _ | _⟩ <;> simp

/-- A text that can be read is that of some bytes. -/
lemma readText_eq_ok {tree : FileTree} {p : Path} {text : List Char} :
    tree.readText p = .ok text ↔
      ∃ content, tree.readBytes p = .ok content ∧ Utf8.decode? content = .ok text := by
  unfold readText
  cases tree.readBytes p with
  | error fault => simp
  | ok content => cases hdecode : Utf8.decode? content <;> simp [hdecode]

/-- A grounded path that a file is read by is a readable spelling. -/
theorem readable_of_readBytes {tree : FileTree} {p : Path} {content : Bytes} (hp : p.Grounded)
    (h : tree.readBytes p = .ok content) : p.Readable := by
  obtain ⟨place, modified, hresolve⟩ := readBytes_eq_ok.1 h
  obtain ⟨hzero, hshort, hwalk⟩ := walk_of_resolve hp.absolute hresolve
  obtain ⟨-, -, hlast⟩ := walk_found (by simp [find?]) hp.not_mem_segments hwalk
  exact ⟨hp, hzero, hshort, hlast content modified rfl⟩

end FileTree

end BracketTemplate
