import Mathlib
import BracketTemplate.Proofs.Files.Spelling

/-!
# What lies below a place

A grounded path is looked up name by name.  When it lies below another one, the names of that one
come first, and what follows is looked up from where they lead (`FileTree.walk_through`).  So what
can be seen of a tree by the paths below a root is what stands at the place of the root and below
it: trees that are alike there (`FileTree.AlikeBelow`) read the same by all these paths
(`FileTree.AlikeBelow.readText`).
-/

namespace BracketTemplate

namespace FileTree

/-- Two trees are alike at a place and below it.  The names above it lead to the same, or fail to
lead anywhere for the same reason. -/
structure AlikeBelow (tree other : FileTree) (root : Place) : Prop where
  top : other.walk [] .directory root = tree.walk [] .directory root
  below : ∀ names, other.find? (root ++ names) = tree.find? (root ++ names)

/-! ## Walking through a place -/

/-- Segments that start with some names lead, in every tree, through the place of these names. -/
lemma walk_through {segments names : List (List Char)} {behind : List Path.Component}
    (hparent : ['.', '.'] ∉ segments)
    (hnames : segments.filterMap Path.Component.ofSegment = names.map .name ++ behind) :
    ∃ rest, ['.', '.'] ∉ rest ∧ rest.filterMap Path.Component.ofSegment = behind ∧
      ∀ (tree : FileTree) place entry, tree.walk place entry segments =
        (tree.walk place entry names >>= fun found => tree.walk found.1 found.2 rest) := by
  induction segments generalizing names with
  | nil =>
    obtain ⟨hnil, rfl⟩ := List.append_eq_nil_iff.1 hnames.symm
    obtain rfl : names = [] := List.map_eq_nil_iff.1 hnil
    exact ⟨[], hparent, rfl, fun tree place entry => rfl⟩
  | cons segment more ih =>
    cases names with
    | nil => exact ⟨segment :: more, hparent, hnames, fun tree place entry => rfl⟩
    | cons name names =>
      simp only [List.mem_cons, not_or] at hparent
      by_cases hblank : segment = [] ∨ segment = ['.']
      · have hnone : Path.Component.ofSegment segment = none := Path.ofSegment_of_blank hblank
        rw [List.filterMap_cons_none hnone] at hnames
        obtain ⟨rest, hrest, hbehind, hwalk⟩ := ih hparent.2 hnames
        refine ⟨rest, hrest, hbehind, fun tree place entry => ?_⟩
        cases entry with
        | file content modified => rfl
        | directory =>
          rw [walk, if_pos hblank]
          exact hwalk tree place .directory
      · have hdots : segment ≠ ['.', '.'] := fun hsegment => hparent.1 hsegment.symm
        rw [List.filterMap_cons_some (Path.ofSegment_of_ne hblank hdots), List.map_cons,
          List.cons_append] at hnames
        obtain ⟨hname, hothers⟩ := List.cons.inj hnames
        obtain rfl : segment = name := by simpa using hname
        obtain ⟨rest, hrest, hbehind, hwalk⟩ := ih hparent.2 hothers
        refine ⟨rest, hrest, hbehind, fun tree place entry => ?_⟩
        cases entry with
        | file content modified => rfl
        | directory =>
          rw [walk, walk, if_neg hblank, if_neg hblank, if_neg hdots, if_neg hdots]
          split
          · rfl
          · cases tree.find? (place ++ [segment]) with
            | none => rfl
            | some found => exact hwalk tree _ found

/-- Trees with the same below a place lead from there to the same. -/
lemma walk_alike {tree other : FileTree} {place : Place} {entry : FileEntry}
    {segments : List (List Char)} (hparent : ['.', '.'] ∉ segments)
    (h : ∀ names, other.find? (place ++ names) = tree.find? (place ++ names)) :
    other.walk place entry segments = tree.walk place entry segments := by
  induction segments generalizing place entry with
  | nil => cases entry <;> rfl
  | cons segment rest ih =>
    cases entry with
    | file content modified => rfl
    | directory =>
      simp only [List.mem_cons, not_or] at hparent
      have hdots : segment ≠ ['.', '.'] := fun hsegment => hparent.1 hsegment.symm
      rw [walk, walk, if_neg hdots, if_neg hdots, h [segment]]
      refine if_congr Iff.rfl (ih hparent.2 h) (if_congr Iff.rfl rfl ?_)
      cases tree.find? (place ++ [segment]) with
      | none => rfl
      | some found =>
        refine ih hparent.2 fun names => ?_
        rw [List.append_assoc]
        exact h _

/-! ## Paths below a root -/

/-- The names of a path lead to the place that they make up. -/
lemma walk_place {tree : FileTree} {root : Path} (hroot : root.Grounded) {found : Place × FileEntry}
    (h : tree.walk [] .directory (tree.placeOf root) = .ok found) :
    found.1 = tree.placeOf root := by
  obtain ⟨names, hnames⟩ := hroot.components
  rw [placeOf_names hnames] at h ⊢
  have hparts : root.segments.filterMap Path.Component.ofSegment = names.map .name := by
    rw [Path.components_of_isAbsolute hroot.absolute] at hnames
    exact (List.cons.inj hnames).2
  -- a name is the name that it is read as
  have hread : ∀ name ∈ names, Path.Component.ofSegment name = some (.name name) := by
    intro name hname
    have hmem : Path.Component.name name ∈ root.segments.filterMap Path.Component.ofSegment := by
      rw [hparts]
      exact List.mem_map_of_mem hname
    obtain ⟨segment, -, hsegment⟩ := List.mem_filterMap.1 hmem
    unfold Path.Component.ofSegment at hsegment
    split at hsegment
    · cases hsegment
    · cases hsegment
    · cases hsegment
    · obtain rfl : segment = name := by simpa using hsegment
      exact Path.ofSegment_of_ne (by tauto) (by tauto)
  have hall : names.filterMap Path.Component.ofSegment = names.map .name := by
    rw [← List.filterMap_eq_map]
    exact List.filterMap_congr fun name hname => hread name hname
  have hparent : ['.', '.'] ∉ names := by
    intro hdots
    cases hread _ hdots
  exact (walk_top hparent hall h).1

/-- **Trees that are alike below a root read the same there.** -/
theorem AlikeBelow.readText {tree other : FileTree} {p root : Path} (hroot : root.Grounded)
    (h : AlikeBelow tree other (tree.placeOf root)) (hp : p.Grounded)
    (hwithin : p.startsWith root = true) : other.readText p = tree.readText p := by
  have hresolve : other.resolve p = tree.resolve p := by
    obtain ⟨names, hnames⟩ := hroot.components
    obtain ⟨behind, hbehind⟩ := Path.startsWith_iff.1 hwithin
    rw [hnames, Path.components_of_isAbsolute hp.absolute] at hbehind
    obtain ⟨rest, hrest, -, hwalk⟩ :=
      walk_through hp.not_mem_segments (List.cons.inj hbehind).2.symm
    have hwalks : other.walk [] .directory p.segments = tree.walk [] .directory p.segments := by
      rw [hwalk, hwalk, ← placeOf_names hnames tree, h.top]
      rcases hfound : tree.walk [] .directory (tree.placeOf root) with fault | ⟨place, entry⟩
      · rfl
      · obtain rfl : place = tree.placeOf root := walk_place hroot hfound
        exact walk_alike hrest h.below
    unfold resolve
    rw [hp.absolute, if_pos rfl, if_pos rfl, hwalks]
  rw [FileTree.readText, FileTree.readText, readBytes, readBytes, hresolve]

end FileTree

end BracketTemplate
