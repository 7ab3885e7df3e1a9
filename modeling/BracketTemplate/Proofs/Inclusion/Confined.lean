import Mathlib
import BracketTemplate.Proofs.Files.Place
import BracketTemplate.Template.Source

/-!
# Sources stay within their root

Every source that a program can make has its directory within its root, and both are absolute paths
without a segment `..` (`Source.Made.confined`).  So is every source that is included from there, as
long as its file can be read (`Source.Confined.included`); and a name that passes the check for path
safety always stands for a file within the root (`Source.Confined.resolveInclude`).
-/

namespace BracketTemplate

namespace Source

/-- The directory of the source lies within the root, and both are grounded. -/
structure Confined (s : Source) : Prop where
  workdir : s.workdir.Grounded
  rootdir : s.rootdir.Grounded
  within : s.workdir.startsWith s.rootdir = true

/-- A source that a program can make: from a text, or from a file. -/
inductive Made (tree : FileTree) (s : Source) : Prop
  | text {text : List Char} {workdir rootdir file : Option Path}
      (h : ofText tree text workdir rootdir file = .ok s)
  | file {file : Path} {rootdir : Option Path} (h : ofFile tree file rootdir = .ok s)

/-! ## Making a source -/

lemma isAbsolute_cwdPath (tree : FileTree) : tree.cwdPath.isAbsolute = true := by
  unfold FileTree.cwdPath
  split
  · rfl
  · next h =>
    obtain ⟨name, rest, hcwd⟩ := List.exists_cons_of_ne_nil h
    rw [hcwd]
    rfl

lemma grounded_absolutize {p cwd q : Path} (hcwd : cwd.Grounded) (h : p.absolutize cwd = .ok q) :
    q.Grounded := by
  unfold Path.absolutize at h
  rcases hcheck : p.checkSegments with e | _ <;> rw [hcheck] at h
  · cases h
  change (if p.chars.isEmpty then _ else pure (p.absoluteFrom cwd)) = Except.ok q at h
  split at h
  · cases h
  · cases h
    exact Path.grounded_absoluteFrom hcwd (Path.checkSegments_eq_ok.1 hcheck).2

variable {tree : FileTree} {s : Source}

/-- A computation with errors succeeds where each of its two steps does. -/
lemma bind_eq_ok {ε α β : Type} {first : Except ε α} {next : α → Except ε β} {b : β} :
    (first >>= next) = .ok b ↔ ∃ a, first = .ok a ∧ next a = .ok b := by
  cases first with
  | error e => exact ⟨fun h => (by cases h), fun ⟨a, ha, _⟩ => by cases ha⟩
  | ok a => exact ⟨fun h => ⟨a, rfl, h⟩, fun ⟨a', ha, h⟩ => by cases ha; exact h⟩

/-- A computation with errors fails where its first step does, or its second. -/
lemma bind_eq_error {ε α β : Type} {first : Except ε α} {next : α → Except ε β} {e : ε} :
    (first >>= next) = .error e ↔ first = .error e ∨ ∃ a, first = .ok a ∧ next a = .error e := by
  cases first with
  | error e' =>
    refine ⟨fun h => .inl (by cases h; rfl), fun h => ?_⟩
    rcases h with h | ⟨_, h, -⟩
    · cases h
      rfl
    · cases h
  | ok a =>
    refine ⟨fun h => .inr ⟨a, rfl, h⟩, fun h => ?_⟩
    rcases h with h | ⟨_, h, hnext⟩
    · cases h
    · cases h
      exact hnext

/-- What a computation goes on with matters where its first step succeeds. -/
lemma bind_congr_ok {ε α β : Type} {first : Except ε α} {next other : α → Except ε β}
    (h : ∀ a, first = .ok a → next a = other a) : (first >>= next) = (first >>= other) := by
  cases first with
  | error e => rfl
  | ok a => exact h a rfl

end Source

/-! ## Errors of paths -/

namespace Path

/-- A path that does not pass a check is an error of its own kind. -/
lemma security_checkSegments {p : Path} {e : TemplateError} (h : p.checkSegments = .error e) :
    ∃ cause, e = .security p cause := by
  unfold checkSegments at h
  split at h
  · cases h
    exact ⟨_, rfl⟩
  · split at h <;> cases h
    exact ⟨_, rfl⟩

lemma security_ensureWithin {p root : Path} {e : TemplateError}
    (h : p.ensureWithin root = .error e) : ∃ cause, e = .security p cause := by
  unfold ensureWithin at h
  split at h <;> cases h
  exact ⟨_, rfl⟩

lemma security_resolveInclude {name : List Char} {workdir rootdir : Path} {e : TemplateError}
    (h : resolveInclude name workdir rootdir = .error e) : ∃ p cause, e = .security p cause := by
  rcases Source.bind_eq_error.1 h with hcheck | ⟨_, -, h⟩
  · exact ⟨_, security_checkSegments hcheck⟩
  · rcases Source.bind_eq_error.1 h with hwithin | ⟨_, -, h⟩
    · exact ⟨_, security_ensureWithin hwithin⟩
    · cases h

end Path

namespace Source

variable {tree : FileTree} {s : Source}

/-- A directory that is given, made absolute, or another. -/
def givenOr (tree : FileTree) (dir : Option Path) (other : Path) : Except TemplateError Path :=
  match dir with
  | some dir => dir.absolutize tree.cwdPath
  | none => .ok other

lemma grounded_givenOr (hcwd : tree.cwdPath.Grounded) {dir : Option Path} {other p : Path}
    (hother : other.Grounded) (h : givenOr tree dir other = .ok p) : p.Grounded := by
  cases dir with
  | none =>
    cases h
    exact hother
  | some dir => exact grounded_absolutize hcwd h

lemma dirs_of_steps {workdir rootdir : Option Path}
    (finish : Path → Path → Except TemplateError Source)
    (hfinish : ∀ dir root, finish dir root = .ok s → s.workdir = dir ∧ s.rootdir = root)
    (h : (givenOr tree workdir tree.cwdPath >>= fun dir =>
      givenOr tree rootdir dir >>= fun root =>
      dir.ensureWithin root >>= fun _ => finish dir root) = .ok s) :
    givenOr tree workdir tree.cwdPath = .ok s.workdir ∧
      givenOr tree rootdir s.workdir = .ok s.rootdir ∧
      s.workdir.ensureWithin s.rootdir = .ok () := by
  obtain ⟨dir, hdir, h⟩ := bind_eq_ok.1 h
  obtain ⟨root, hroot, h⟩ := bind_eq_ok.1 h
  obtain ⟨_, hwithin, h⟩ := bind_eq_ok.1 h
  obtain ⟨rfl, rfl⟩ := hfinish dir root h
  exact ⟨hdir, hroot, hwithin⟩

/-- The directories of a source are checked before its file. -/
lemma ofText_dirs {text : List Char} {workdir rootdir file : Option Path}
    (h : ofText tree text workdir rootdir file = .ok s) :
    givenOr tree workdir tree.cwdPath = .ok s.workdir ∧
      givenOr tree rootdir s.workdir = .ok s.rootdir ∧
      s.workdir.ensureWithin s.rootdir = .ok () := by
  cases file with
  | none =>
    refine dirs_of_steps (fun dir root => pure ⟨text, dir, root, none⟩) ?_ ?_
    · intro dir root hdone
      cases hdone
      exact ⟨rfl, rfl⟩
    · rw [← h]
      cases workdir <;> cases rootdir <;> rfl
  | some file =>
    refine dirs_of_steps (fun dir root => file.checkSegments >>= fun _ =>
      (if file.isAbsolute then file else dir.join file).ensureWithin dir >>= fun _ =>
      pure ⟨text, dir, root, some (if file.isAbsolute then file else dir.join file)⟩) ?_ ?_
    · intro dir root hdone
      obtain ⟨_, -, hdone⟩ := bind_eq_ok.1 hdone
      obtain ⟨_, -, hdone⟩ := bind_eq_ok.1 hdone
      cases hdone
      exact ⟨rfl, rfl⟩
    · rw [← h]
      cases workdir <;> cases rootdir <;> rfl

lemma confined_ofText (hcwd : tree.cwdPath.Grounded) {text : List Char}
    {workdir rootdir file : Option Path} (h : ofText tree text workdir rootdir file = .ok s) :
    s.Confined := by
  obtain ⟨hdir, hroot, hwithin⟩ := ofText_dirs h
  have hworkdir := grounded_givenOr hcwd hcwd hdir
  exact ⟨hworkdir, grounded_givenOr hcwd hworkdir hroot, Path.ensureWithin_eq_ok.1 hwithin⟩

/-- **Every source that a program can make is confined**, when the current directory is. -/
theorem Made.confined (hcwd : tree.cwdPath.hasParentSegment = false) (h : Made tree s) :
    s.Confined := by
  have hgrounded : tree.cwdPath.Grounded :=
    ⟨isAbsolute_cwdPath tree, Path.hasParentSegment_eq_false.1 hcwd⟩
  cases h with
  | text h => exact confined_ofText hgrounded h
  | file h =>
    unfold ofFile at h
    obtain ⟨file, -, h⟩ := bind_eq_ok.1 h
    split at h
    · cases h
    · split at h
      · cases h
      · exact confined_ofText hgrounded h

/-! ## Following a name -/

/-- **A name that is safe stands for a file within the root**, however it is spelled. -/
theorem Confined.resolveInclude (hs : s.Confined) {name : List Char}
    (hname : (Path.mk name).checkSegments = .ok ()) :
    ∃ base q : Path, Path.resolveInclude name s.workdir s.rootdir = .ok (base.join q) ∧
      base.Grounded ∧ base.startsWith s.rootdir = true ∧ q.isAbsolute = false ∧
      .parent ∉ Path.parts q.chars := by
  have hparent : .parent ∉ Path.parts name :=
    Path.hasParentSegment_eq_false.1 (Path.checkSegments_eq_ok.1 hname).2
  have hjoin : ∀ base q : Path, base.Grounded → base.startsWith s.rootdir = true →
      q.isAbsolute = false → (base.join q).ensureWithin s.rootdir = .ok () := by
    intro base q hbase hwithin hq
    rw [Path.ensureWithin_eq_ok, Path.startsWith_iff, Path.components_join hbase.absolute hq]
    exact (Path.startsWith_iff.1 hwithin).trans (List.prefix_append _ _)
  by_cases hslash : ∃ rooted, name = '/' :: rooted
  · obtain ⟨rooted, rfl⟩ := hslash
    have hrelative : (Path.mk (rooted.dropWhile (· = '/'))).isAbsolute = false := by
      have hhead := List.head?_dropWhile_not (fun c => decide (c = '/')) rooted
      unfold Path.isAbsolute
      cases h : (rooted.dropWhile fun c => decide (c = '/')).head? with
      | none => rfl
      | some c =>
        rw [h] at hhead
        simpa using hhead
    have hwithin := hjoin s.rootdir _ hs.rootdir (Path.startsWith_self _) hrelative
    refine ⟨s.rootdir, ⟨rooted.dropWhile (· = '/')⟩, ?_, hs.rootdir, Path.startsWith_self _,
      hrelative, ?_⟩
    · exact bind_eq_ok.2 ⟨_, hname, bind_eq_ok.2 ⟨_, hwithin, rfl⟩⟩
    · rwa [Path.parts_dropWhile, ← Path.parts_slash]
  · have hrelative : (Path.mk name).isAbsolute = false := by
      unfold Path.isAbsolute
      cases name with
      | nil => rfl
      | cons c name => simpa using fun hc : c = '/' => hslash ⟨name, by rw [hc]⟩
    have hwithin := hjoin s.workdir _ hs.workdir hs.within hrelative
    refine ⟨s.workdir, ⟨name⟩, ?_, hs.workdir, hs.within, hrelative, hparent⟩
    unfold Path.resolveInclude
    refine bind_eq_ok.2 ⟨_, hname, ?_⟩
    split
    · next rooted => exact absurd ⟨rooted, rfl⟩ hslash
    · exact bind_eq_ok.2 ⟨_, hwithin, rfl⟩

/-- The name of an include that can be followed is safe. -/
lemma checkSegments_of_resolveInclude {name : List Char} {workdir rootdir target : Path}
    (h : Path.resolveInclude name workdir rootdir = .ok target) :
    (Path.mk name).checkSegments = .ok () := by
  obtain ⟨_, hcheck, -⟩ := bind_eq_ok.1 h
  exact hcheck

/-- The file that an include stands for lies at a grounded path. -/
lemma Confined.grounded_target (hs : s.Confined) {name : List Char} {target : Path}
    (h : Path.resolveInclude name s.workdir s.rootdir = .ok target) : target.Grounded := by
  obtain ⟨base, q, hresolve, hbase, -, -, hparent⟩ :=
    hs.resolveInclude (checkSegments_of_resolveInclude h)
  rw [h] at hresolve
  cases hresolve
  exact hbase.join hparent

/-- **A source that is included is confined, too.** -/
theorem Confined.included (hs : s.Confined) {name text : List Char} {target : Path}
    (h : Path.resolveInclude name s.workdir s.rootdir = .ok target)
    (hread : tree.readText target = .ok text) : (s.included target text).Confined := by
  have hgrounded := hs.grounded_target h
  obtain ⟨base, q, hresolve, hbase, hwithin, hrelative, hparent⟩ :=
    hs.resolveInclude (checkSegments_of_resolveInclude h)
  rw [h] at hresolve
  obtain rfl : target = base.join q := by
    cases hresolve
    rfl
  -- the last segment of a file is a name, and it is one of the name of the include
  obtain ⟨-, segment, hlast, hsegment⟩ := FileTree.readText_file hgrounded hread
  obtain ⟨dir, hdir, habsolute, hparts⟩ := Path.parent?_segment hgrounded.absolute hlast hsegment
  obtain ⟨more, hmore⟩ : ∃ more, Path.parts dir.chars = Path.parts base.chars ++ more := by
    have hne : base.chars ≠ [] := by
      intro hnil
      have := hbase.absolute
      simp [Path.isAbsolute, hnil] at this
    obtain ⟨front, hjoin, -⟩ := Path.join_chars hne hrelative
    have hlastName : (splitAt '/' q.chars).getLast? = some segment := by
      rw [Path.segments, hjoin, splitAt_append, List.getLast?_append] at hlast
      cases hq : (splitAt '/' q.chars).getLast? with
      | none => exact absurd (List.getLast?_eq_none_iff.1 hq) (splitAt_ne_nil _ _)
      | some other => rwa [hq] at hlast
    obtain ⟨init, hinit⟩ := List.getLast?_eq_some_iff.1 hlastName
    refine ⟨init.filterMap Path.Component.ofSegment,
      List.append_cancel_right (hparts.symm.trans ?_)⟩
    rw [Path.parts_join hrelative, List.append_assoc]
    refine congrArg _ ?_
    rw [Path.parts, hinit, List.filterMap_append]
    simp [hsegment]
  have hdirGrounded : dir.Grounded := by
    refine ⟨habsolute, fun hmem => hgrounded.noParent ?_⟩
    rw [hparts]
    exact List.mem_append_left _ hmem
  have hworkdir : (s.included (base.join q) text).workdir = dir := by
    simp [Source.included, hdir]
  refine ⟨hworkdir ▸ hdirGrounded, hs.rootdir, ?_⟩
  rw [hworkdir, Path.startsWith_iff]
  refine (Path.startsWith_iff.1 hwithin).trans ?_
  rw [Path.components_of_isAbsolute hbase.absolute, Path.components_of_isAbsolute habsolute, hmore]
  exact List.prefix_append _ _

end Source

end BracketTemplate
