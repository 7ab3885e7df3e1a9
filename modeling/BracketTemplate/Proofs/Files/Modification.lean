import Mathlib
import BracketTemplate.Proofs.Files.Spelling
import BracketTemplate.Template.Source

/-!
# Times of modification

The time that a page is remembered by is the newest one of its files.  It is the time of one of
them, and there is none without all of them (`newestModification_mem`, `exists_modified`).  So it
differs between two trees exactly when in the one some file is later than all of them are in the
other (`newestModification_ne`).

When times only go up, the newest time tells more.  A tree is `Later` than another when what it has
in place of a file of the other is that file, or bears a time that is later than all times before.
Then files that have the same newest time in both trees are the same files (`Later.keeps`): one that
had been written in between would be newer than all of them were.
-/

namespace BracketTemplate

/-! ## The newest time of some files -/

section Newest

variable {tree : FileTree} {paths : List Path}

/-- A newest time looks at one file after the other. -/
lemma newestModification_cons (path : Path) :
    newestModification tree (path :: paths) =
      match tree.modified path, newestModification tree paths with
      | .error fault, _ => .error fault
      | .ok _, .error fault => .error fault
      | .ok modified, .ok none => .ok (some modified)
      | .ok modified, .ok (some other) => .ok (some (max modified other)) := by
  rw [newestModification]
  rcases tree.modified path with fault | modified
  · rfl
  · rcases newestModification tree paths with fault | _ | other <;> rfl

/-- A newest time depends on the times of these files only. -/
lemma newestModification_congr {other : FileTree}
    (h : ∀ p ∈ paths, other.modified p = tree.modified p) :
    newestModification other paths = newestModification tree paths := by
  induction paths with
  | nil => rfl
  | cons path paths ih =>
    rw [newestModification_cons, newestModification_cons, h path List.mem_cons_self,
      ih fun p hp => h p (List.mem_cons_of_mem _ hp)]

/-- Where there is a newest time, every file has a time, and it is not later. -/
lemma exists_modified {newest : Option Int} (h : newestModification tree paths = .ok newest)
    {p : Path} (hp : p ∈ paths) :
    ∃ time latest, tree.modified p = .ok time ∧ newest = some latest ∧ time ≤ latest := by
  induction paths generalizing newest with
  | nil => cases hp
  | cons path paths ih =>
    rw [newestModification_cons] at h
    rcases hmodified : tree.modified path with fault | modified <;> rw [hmodified] at h
    · cases h
    rcases hrest : newestModification tree paths with fault | rest <;> rw [hrest] at h
    · cases h
    rcases List.mem_cons.1 hp with rfl | hmem
    · cases rest with
      | none =>
        cases h
        exact ⟨modified, modified, hmodified, rfl, le_rfl⟩
      | some other =>
        cases h
        exact ⟨modified, _, hmodified, rfl, le_max_left modified other⟩
    · obtain ⟨time, latest, htime, rfl, hle⟩ := ih hrest hmem
      cases h
      exact ⟨time, _, htime, rfl, hle.trans (le_max_right modified latest)⟩

/-- The newest time is that of one of the files. -/
lemma newestModification_mem {latest : Int}
    (h : newestModification tree paths = .ok (some latest)) :
    ∃ p ∈ paths, tree.modified p = .ok latest := by
  induction paths generalizing latest with
  | nil => cases h
  | cons path paths ih =>
    rw [newestModification_cons] at h
    rcases hmodified : tree.modified path with fault | modified <;> rw [hmodified] at h
    · cases h
    rcases hrest : newestModification tree paths with fault | _ | other <;> rw [hrest] at h
    · cases h
    · cases h
      exact ⟨path, List.mem_cons_self, hmodified⟩
    · obtain rfl : max modified other = latest := by simpa using h
      rcases max_choice modified other with hmax | hmax
      · exact ⟨path, List.mem_cons_self, by rw [hmax, hmodified]⟩
      · obtain ⟨p, hp, hother⟩ := ih hrest
        exact ⟨p, List.mem_cons_of_mem _ hp, by rw [hmax, hother]⟩

/-- Files that all have times have a newest one. -/
lemma exists_newestModification (h : ∀ p ∈ paths, ∃ time, tree.modified p = .ok time) :
    ∃ newest, newestModification tree paths = .ok newest := by
  induction paths with
  | nil => exact ⟨none, rfl⟩
  | cons path paths ih =>
    obtain ⟨modified, hmodified⟩ := h path List.mem_cons_self
    obtain ⟨newest, hrest⟩ := ih fun p hp => h p (List.mem_cons_of_mem _ hp)
    rw [newestModification_cons, hmodified, hrest]
    cases newest <;> exact ⟨_, rfl⟩

/-- Where there is no newest time, it is for want of one of the files. -/
lemma exists_fault {fault : FileFault} (h : newestModification tree paths = .error fault) :
    ∃ p ∈ paths, tree.modified p = .error fault := by
  induction paths with
  | nil => cases h
  | cons path paths ih =>
    rw [newestModification_cons] at h
    rcases hmodified : tree.modified path with fault' | modified <;> rw [hmodified] at h
    · cases h
      exact ⟨path, List.mem_cons_self, hmodified⟩
    rcases hrest : newestModification tree paths with fault' | _ | other <;> rw [hrest] at h
    · cases h
      obtain ⟨p, hp, hfault⟩ := ih hrest
      exact ⟨p, List.mem_cons_of_mem _ hp, hfault⟩
    · cases h
    · cases h

/-- The latest of the times of some files, each of which has one; none when there are no files. -/
structure FileTree.IsNewest (tree : FileTree) (paths : List Path) (newest : Option Int) : Prop where
  latest : ∀ p ∈ paths, ∃ time latest, tree.modified p = .ok time ∧ newest = some latest ∧
    time ≤ latest
  mem : ∀ latest, newest = some latest → ∃ p ∈ paths, tree.modified p = .ok latest

/-- **The newest time is the latest one.** -/
theorem newestModification_iff {newest : Option Int} :
    newestModification tree paths = .ok newest ↔ tree.IsNewest paths newest := by
  constructor
  · intro h
    exact ⟨fun p hp => exists_modified h hp,
      fun latest hlatest => newestModification_mem (hlatest ▸ h)⟩
  · rintro ⟨hlatest, hmem⟩
    obtain ⟨other, hother⟩ := exists_newestModification fun p hp => by
      obtain ⟨time, -, htime, -, -⟩ := hlatest p hp
      exact ⟨time, htime⟩
    suffices newest = other by rw [this, hother]
    cases newest with
    | none =>
      cases other with
      | none => rfl
      | some m =>
        obtain ⟨p, hp, -⟩ := newestModification_mem hother
        obtain ⟨_, _, -, hnone, -⟩ := hlatest p hp
        cases hnone
    | some m =>
      obtain ⟨p, hp, hm⟩ := hmem m rfl
      obtain ⟨time, m', htime, rfl, hle⟩ := exists_modified hother hp
      obtain ⟨q, hq, hm'⟩ := newestModification_mem hother
      obtain ⟨time', latest, htime', hlast, hle'⟩ := hlatest q hq
      cases hlast
      rw [hm] at htime
      rw [hm'] at htime'
      cases htime
      cases htime'
      exact congrArg some (le_antisymm hle hle')

/-- Some file is later in the second tree than all of them are in the first, or all are earlier than
one of them is there. -/
def Overtakes (old now : FileTree) (paths : List Path) : Prop :=
  (∃ p ∈ paths, ∀ q ∈ paths, ∀ time time', now.modified p = .ok time' →
    old.modified q = .ok time → time < time') ∨
  ∃ q ∈ paths, ∀ p ∈ paths, ∀ time time', now.modified p = .ok time' →
    old.modified q = .ok time → time' < time

/-- **When the newest time tells two trees apart.** -/
theorem newestModification_ne {old now : FileTree} {newest newest' : Option Int}
    (h : newestModification old paths = .ok newest)
    (h' : newestModification now paths = .ok newest') :
    newest' ≠ newest ↔ Overtakes old now paths := by
  unfold Overtakes
  cases newest with
  | none =>
    -- there are no files
    have hnil : paths = [] := by
      refine List.eq_nil_iff_forall_not_mem.2 fun p hp => ?_
      obtain ⟨_, _, -, hsome, -⟩ := exists_modified h hp
      cases hsome
    subst hnil
    cases h'
    simp
  | some latest =>
    obtain ⟨q, hq, hqtime⟩ := newestModification_mem h
    obtain ⟨_, latest', -, rfl, -⟩ := exists_modified h' hq
    obtain ⟨p, hp, hptime⟩ := newestModification_mem h'
    have hold : ∀ r ∈ paths, ∀ time, old.modified r = .ok time → time ≤ latest := by
      intro r hr time htime
      obtain ⟨_, _, htime', hsome, hle⟩ := exists_modified h hr
      cases hsome
      rw [htime] at htime'
      cases htime'
      exact hle
    have hnow : ∀ r ∈ paths, ∀ time, now.modified r = .ok time → time ≤ latest' := by
      intro r hr time htime
      obtain ⟨_, _, htime', hsome, hle⟩ := exists_modified h' hr
      cases hsome
      rw [htime] at htime'
      cases htime'
      exact hle
    constructor
    · intro hne
      have hne : latest' ≠ latest := fun heq => hne (by rw [heq])
      rcases lt_or_gt_of_ne hne with hlt | hgt
      · refine .inr ⟨q, hq, fun r hr time time' htime' htime => ?_⟩
        rw [hqtime] at htime
        cases htime
        exact (hnow r hr time' htime').trans_lt hlt
      · refine .inl ⟨p, hp, fun r hr time time' htime' htime => ?_⟩
        rw [hptime] at htime'
        cases htime'
        exact (hold r hr time htime).trans_lt hgt
    · rintro (⟨r, hr, hlater⟩ | ⟨r, hr, hearlier⟩) heq
      · obtain ⟨time', _, htime', -, -⟩ := exists_modified h' hr
        have hlt := hlater q hq latest time' htime' hqtime
        have hle := hnow r hr time' htime'
        cases heq
        omega
      · obtain ⟨time, _, htime, -, -⟩ := exists_modified h hr
        have hlt := hearlier p hp time latest' hptime htime
        have hle := hold r hr time htime
        cases heq
        omega

end Newest

namespace FileTree

/-! ## Trees after others -/

/-- A time that some file of a tree bears. -/
def HasTime (tree : FileTree) (time : Int) : Prop :=
  ∃ place content, tree.find? place = some (.file content time)

/-- The time of what stands at a place. -/
def timeOf (tree : FileTree) : FileEntry → Int
  | .file _ modified => modified
  | .directory => tree.made

lemma modified_eq_error {tree : FileTree} {p : Path} {fault : FileFault} :
    tree.modified p = .error fault ↔ tree.resolve p = .error fault := by
  unfold FileTree.modified
  rcases tree.resolve p with fault' | ⟨place, _ | _⟩ <;> simp

lemma modified_of_resolve {tree : FileTree} {p : Path} {place : Place} {found : FileEntry}
    (h : tree.resolve p = .ok (place, found)) : tree.modified p = .ok (tree.timeOf found) := by
  rw [FileTree.modified, h]
  cases found <;> rfl

/-- Where a file of the first tree was, the second one has that file, or something with a time later
than those of all files of the first.  Where no file was, it may have anything. -/
def Later (old now : FileTree) : Prop :=
  ∀ place content modified entry, old.find? place = some (.file content modified) →
    now.find? place = some entry →
    entry = .file content modified ∨ ∀ before, old.HasTime before → before < now.timeOf entry

lemma Later.refl (tree : FileTree) : Later tree tree := by
  intro place content modified entry hfind hentry
  rw [hfind] at hentry
  cases hentry
  exact .inl rfl

/-- A readable path leads to the place that it names, and to what stands there. -/
lemma resolve_found {tree : FileTree} {p : Path} (hp : p.Readable) {place : Place}
    {found : FileEntry} (h : tree.resolve p = .ok (place, found)) :
    place = tree.placeOf p ∧ tree.find? place = some found := by
  obtain ⟨names, hnames⟩ := hp.grounded.components
  have hparts : p.segments.filterMap Path.Component.ofSegment = names.map .name := by
    rw [Path.components_of_isAbsolute hp.grounded.absolute] at hnames
    exact (List.cons.inj hnames).2
  obtain ⟨-, -, hwalk⟩ := walk_of_resolve hp.grounded.absolute h
  obtain ⟨rfl, hfound⟩ := walk_top hp.grounded.not_mem_segments hparts hwalk
  exact ⟨(placeOf_names hnames tree).symm, hfound⟩

/-- The place of a grounded path is the same in all trees. -/
lemma placeOf_eq {p : Path} (hp : p.Grounded) (tree other : FileTree) :
    tree.placeOf p = other.placeOf p := by
  obtain ⟨names, hnames⟩ := hp.components
  rw [placeOf_names hnames, placeOf_names hnames]

/-- **When times go up, the newest time tells all.**  Files with the same newest time in a tree and
in a later one are the same files. -/
theorem Later.keeps {old now : FileTree} (hlater : Later old now) {paths : List Path}
    (hfiles : ∀ p ∈ paths, p.Grounded ∧ ∃ content, old.readBytes p = .ok content)
    {newest : Option Int} (hold : newestModification old paths = .ok newest)
    (hnow : newestModification now paths = .ok newest) {p : Path} (hp : p ∈ paths) :
    now.readBytes p = old.readBytes p := by
  have hreadable : ∀ q ∈ paths, q.Readable := by
    intro q hq
    obtain ⟨hgrounded, content, hread⟩ := hfiles q hq
    exact readable_of_readBytes hgrounded hread
  obtain ⟨hgrounded, content, hread⟩ := hfiles p hp
  obtain ⟨place, modified, hresolve⟩ := readBytes_eq_ok.1 hread
  obtain ⟨hplace, hfind⟩ := resolve_found (hreadable p hp) hresolve
  obtain ⟨time, latest, htime, rfl, hle⟩ := exists_modified hnow hp
  -- the newest time is borne by a file of the first tree
  have hborne : old.HasTime latest := by
    obtain ⟨q, hq, hqtime⟩ := newestModification_mem hold
    obtain ⟨-, content', hread'⟩ := hfiles q hq
    obtain ⟨place', modified', hresolve'⟩ := readBytes_eq_ok.1 hread'
    have hfind' := (resolve_found (hreadable q hq) hresolve').2
    rw [FileTree.modified, hresolve'] at hqtime
    cases hqtime
    exact ⟨place', content', hfind'⟩
  rcases hresolve' : now.resolve p with fault | ⟨place', found⟩
  · rw [FileTree.modified, hresolve'] at htime
    cases htime
  · obtain ⟨hplace', hfind'⟩ := resolve_found (hreadable p hp) hresolve'
    obtain rfl : place' = place := by rw [hplace', hplace, placeOf_eq hgrounded now old]
    rcases hlater _ _ _ _ hfind hfind' with rfl | hafter
    · rw [readBytes, readBytes, hresolve, hresolve']
    · -- what was written since would be newer than all of them
      have hlt := hafter latest hborne
      rw [modified_of_resolve hresolve'] at htime
      cases htime
      omega

end FileTree

end BracketTemplate
