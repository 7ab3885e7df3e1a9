import Mathlib
import BracketTemplate.Proofs.Files.Below
import BracketTemplate.Proofs.Inclusion.Reads

/-!
# Files outside of a root

Making the template of a file within a root is meant to show nothing of the files outside of it.
For a file within the root that is so: whatever is read lies within it, so that trees that are alike
there make the same template of the file, or fail with the same error (`Template.ofFile_alike`).  A
name that has no absolute path, or none with a directory, is refused before anything is read.

A file outside of the root is read before it is refused.  When it cannot be read the error is that
of reading it (`Template.ofFile_outside`), and so it is for any file when the root itself is refused
(`Template.ofFile_refusedRoot`).  What can be seen of the tree beyond the root is therefore why the
file that is named cannot be read, and nothing else (`Template.ofFile_sees`).
-/

namespace BracketTemplate

namespace Source

variable {tree : FileTree} {text : List Char} {dir root file : Path}

/-- A source with a root that is refused is refused for it. -/
lemma ofText_refusedRoot (hdir : dir.Grounded) (hfile : file.isAbsolute = true) {e : TemplateError}
    (hroot : root.absolutize tree.cwdPath = .error e) :
    ofText tree text (some dir) (some root) (some file) = .error e := by
  rw [ofText_file hfile, hdir.absolutize, hroot]
  rfl

/-- A source in a directory outside of its root is refused. -/
lemma ofText_outside (hdir : dir.Grounded) (hfile : file.isAbsolute = true) {absolute : Path}
    (hroot : root.absolutize tree.cwdPath = .ok absolute) (hout : dir.startsWith absolute = false) :
    ofText tree text (some dir) (some root) (some file) =
      .error (.security (dir.absoluteFrom tree.cwdPath) (.outside absolute)) := by
  have hwithin : (dir.absoluteFrom tree.cwdPath).startsWith absolute = false := by
    rw [Path.startsWith, Path.components_absoluteFrom hdir.absolute]
    exact hout
  have hrefused : (dir.absoluteFrom tree.cwdPath).ensureWithin absolute =
      .error (.security (dir.absoluteFrom tree.cwdPath) (.outside absolute)) := by
    rw [Path.ensureWithin, hwithin]
    rfl
  rw [ofText_file hfile, hdir.absolutize, hroot]
  show ((dir.absoluteFrom tree.cwdPath).ensureWithin absolute >>= _) = _
  rw [hrefused]
  rfl

/-- The directory of a file that can be read is grounded, and the file lies right below it. -/
lemma grounded_dir {path : Path} (hpath : path.Grounded) (hdir : path.parent? = some dir)
    (hread : tree.readText path = .ok text) :
    dir.Grounded ∧ ∃ last, path.components = dir.components ++ [last] := by
  obtain ⟨-, segment, hlast, hsegment⟩ := FileTree.readText_file hpath hread
  obtain ⟨dir', hdir', habsolute, hparts⟩ :=
    Path.parent?_segment hpath.absolute hlast hsegment
  obtain rfl : dir' = dir := Option.some.inj (hdir'.symm.trans hdir)
  refine ⟨⟨habsolute, fun hmem => hpath.noParent ?_⟩, .name segment, ?_⟩
  · rw [hparts]
    exact List.mem_append_left _ hmem
  · rw [Path.components_of_isAbsolute habsolute,
      Path.components_of_isAbsolute hpath.absolute, hparts]
    rfl

end Source

namespace Template

variable {tree other : FileTree} {evaluator : Evaluator} {identity : Nat}
  {file path dir root absolute : Path}

/-- **Within the root nothing else is seen.**  In trees that are alike below the root, a file within
it has the same template, or none for the same reason. -/
theorem ofFile_alike (hcwd : tree.cwdPath.hasParentSegment = false)
    (hsame : other.cwdPath = tree.cwdPath) (hroot : root.absolutize tree.cwdPath = .ok absolute)
    (halike : tree.AlikeBelow other (tree.placeOf absolute))
    (hfile : ∀ path, file.absolutize tree.cwdPath = .ok path →
      path.startsWith absolute = true ∨ path.parent? = none) :
    ofFile evaluator other identity file (some root) =
      ofFile evaluator tree identity file (some root) := by
  refine ofFile_of_reads hcwd hsame (fun p hreads => ?_) evaluator identity
  have hgrounded := Source.grounded_of_absolutize hcwd hroot
  obtain ⟨habsolute, hparent⟩ := hreads.grounded hcwd
  refine halike.readText hgrounded ⟨habsolute, Path.hasParentSegment_eq_false.1 hparent⟩ ?_
  cases hreads with
  | own hpath hdir =>
    rcases hfile p hpath with hwithin | hnone
    · exact hwithin
    · cases hnone.symm.trans hdir
  | included hsource hreads =>
    have hinside := ((Source.Made.file hsource).confined hcwd).inside hreads
    obtain rfl := Except.ok.inj (hroot.symm.trans (Source.ofFile_root hsource))
    exact hinside.within

/-- The template of a file, once its source is refused whatever its text is. -/
lemma ofFile_refusedText (hpath : file.absolutize tree.cwdPath = .ok path)
    (hdir : path.parent? = some dir) {e : TemplateError}
    (hrefused : ∀ text, tree.readText path = .ok text →
      Source.ofText tree text (some dir) (some root) (some path) = .error e) :
    ofFile evaluator tree identity file (some root) =
      match tree.readText path with
      | .error fault => .error (.io path fault)
      | .ok _ => .error e := by
  obtain ⟨herror, hok⟩ := Source.ofFile_of_read hpath hdir (some root)
  unfold ofFile
  rcases hread : tree.readText path with fault | text
  · rw [herror fault hread]
    rfl
  · rw [hok text hread, Option.getD_some, hrefused text hread]
    rfl

/-- **A file outside of the root is read before it is refused.** -/
theorem ofFile_outside (hcwd : tree.cwdPath.hasParentSegment = false)
    (hroot : root.absolutize tree.cwdPath = .ok absolute)
    (hpath : file.absolutize tree.cwdPath = .ok path) (hdir : path.parent? = some dir)
    (hout : path.startsWith absolute = false) :
    ofFile evaluator tree identity file (some root) =
      match tree.readText path with
      | .error fault => .error (.io path fault)
      | .ok _ => .error (.security (dir.absoluteFrom tree.cwdPath) (.outside absolute)) := by
  have hgrounded := Source.grounded_of_absolutize hcwd hpath
  refine ofFile_refusedText hpath hdir fun text hread => ?_
  obtain ⟨hdirGrounded, last, hcomponents⟩ := Source.grounded_dir hgrounded hdir hread
  refine Source.ofText_outside hdirGrounded hgrounded.absolute hroot ?_
  -- a directory within the root would have the file within it
  by_contra hwithin
  rw [Bool.not_eq_false] at hwithin
  have hbelow : path.startsWith dir = true := Path.startsWith_iff.2 ⟨[last], hcomponents.symm⟩
  rw [Path.startsWith_trans hbelow hwithin] at hout
  cases hout

/-- A file is read before a root that is no safe path is refused. -/
theorem ofFile_refusedRoot (hcwd : tree.cwdPath.hasParentSegment = false) {e : TemplateError}
    (hroot : root.absolutize tree.cwdPath = .error e)
    (hpath : file.absolutize tree.cwdPath = .ok path) (hdir : path.parent? = some dir) :
    ofFile evaluator tree identity file (some root) =
      match tree.readText path with
      | .error fault => .error (.io path fault)
      | .ok _ => .error e := by
  have hgrounded := Source.grounded_of_absolutize hcwd hpath
  refine ofFile_refusedText hpath hdir fun text hread => ?_
  exact Source.ofText_refusedRoot (Source.grounded_dir hgrounded hdir hread).1
    hgrounded.absolute hroot

/-- **What a template of a file shows of the files outside of its root.**  A file within the root,
or one that is refused by its name, has the same outcome in all trees that are alike below the root.
For a file outside of it the outcome is an error in every tree, and says whether the file can be
read and why not; the same holds for every file when the root is refused. -/
theorem ofFile_sees (hcwd : tree.cwdPath.hasParentSegment = false)
    (evaluator : Evaluator) (identity : Nat) (file root : Path) :
    (∀ absolute, root.absolutize tree.cwdPath = .ok absolute →
      (∀ path, file.absolutize tree.cwdPath = .ok path →
        path.startsWith absolute = true ∨ path.parent? = none) →
      ∀ other : FileTree, other.cwdPath = tree.cwdPath →
        tree.AlikeBelow other (tree.placeOf absolute) →
        ofFile evaluator other identity file (some root) =
          ofFile evaluator tree identity file (some root)) ∧
    ∀ path dir, file.absolutize tree.cwdPath = .ok path → path.parent? = some dir →
      (∀ absolute, root.absolutize tree.cwdPath = .ok absolute →
        path.startsWith absolute = false) →
      ∃ refusal : TemplateError,
        (∀ absolute, root.absolutize tree.cwdPath = .ok absolute →
          refusal = .security (dir.absoluteFrom tree.cwdPath) (.outside absolute)) ∧
        ∀ other : FileTree, other.cwdPath = tree.cwdPath →
          ofFile evaluator other identity file (some root) =
            match other.readText path with
            | .error fault => .error (.io path fault)
            | .ok _ => .error refusal := by
  refine ⟨fun absolute hroot hfile other hsame halike =>
    ofFile_alike hcwd hsame hroot halike hfile, fun path dir hpath hdir hout => ?_⟩
  rcases hroot : root.absolutize tree.cwdPath with e | absolute
  · refine ⟨e, (fun _ h => by cases h), fun other hsame => ?_⟩
    rw [← hsame] at hcwd hroot hpath
    exact ofFile_refusedRoot hcwd hroot hpath hdir
  · refine ⟨_, (fun _ h => by cases h; rfl), fun other hsame => ?_⟩
    have hnot := hout absolute hroot
    rw [← hsame] at hcwd hroot hpath ⊢
    exact ofFile_outside hcwd hroot hpath hdir hnot

/-! ### A secret -/

/-- A site, with nothing outside of its directory. -/
def bareSite : FileTree where
  entries := [(["site".toList], .directory), (["site".toList, "page".toList], .file [120] 0)]
  cwd := []

/-- The same site, with a file outside of its directory. -/
def secretSite : FileTree :=
  { bareSite with entries := (["secret".toList], .file [120] 0) :: bareSite.entries }

lemma alikeBelow_site : bareSite.AlikeBelow secretSite ["site".toList] where
  top := by decide +kernel
  below := fun names => by
    simp [FileTree.find?, secretSite, List.lookup]

/-- The page of the site is compiled the same with the secret and without it; the secret itself is
missing without it, and refused with it. -/
theorem ofFile_sees_secret :
    ofFile .idle secretSite 0 ⟨"/site/page".toList⟩ (some ⟨"/site".toList⟩) =
        ofFile .idle bareSite 0 ⟨"/site/page".toList⟩ (some ⟨"/site".toList⟩) ∧
      ofFile .idle bareSite 0 ⟨"/secret".toList⟩ (some ⟨"/site".toList⟩) =
        .error (.io ⟨"/secret".toList⟩ .notFound) := by
  have hcwd : bareSite.cwdPath.hasParentSegment = false := by decide +kernel
  have hroot : (⟨"/site".toList⟩ : Path).absolutize bareSite.cwdPath = .ok ⟨"/site".toList⟩ := by
    decide +kernel
  constructor
  · refine (ofFile_sees hcwd .idle 0 ⟨"/site/page".toList⟩ ⟨"/site".toList⟩).1 _ hroot ?_ _ rfl ?_
    · intro path hpath
      have hpage : (⟨"/site/page".toList⟩ : Path).absolutize bareSite.cwdPath =
          .ok ⟨"/site/page".toList⟩ := by decide +kernel
      obtain rfl := Except.ok.inj (hpage.symm.trans hpath)
      decide +kernel
    · exact alikeBelow_site
  · obtain ⟨refusal, -, hall⟩ := (ofFile_sees hcwd .idle 0 ⟨"/secret".toList⟩ ⟨"/site".toList⟩).2
      ⟨"/secret".toList⟩ ⟨"/".toList⟩ (by decide +kernel) (by decide +kernel) (fun absolute h => by
        obtain rfl := Except.ok.inj (hroot.symm.trans h)
        decide +kernel)
    rw [hall bareSite rfl]
    have hread : bareSite.readText ⟨"/secret".toList⟩ = .error .notFound := by decide +kernel
    rw [hread]

/-- **A file outside of the root can be told from one that is not there.**  The two sites are alike
below the root, and the outcome for the secret differs: with the secret there it is refused, and
without it the error is one of reading it. -/
theorem ofFile_tells :
    bareSite.AlikeBelow secretSite ["site".toList] ∧
      ofFile .idle bareSite 0 ⟨"/secret".toList⟩ (some ⟨"/site".toList⟩) =
        .error (.io ⟨"/secret".toList⟩ .notFound) ∧
      ofFile .idle secretSite 0 ⟨"/secret".toList⟩ (some ⟨"/site".toList⟩) =
        .error (.security ⟨"/".toList⟩ (.outside ⟨"/site".toList⟩)) :=
  ⟨alikeBelow_site, by decide +kernel, by decide +kernel⟩

end Template

end BracketTemplate
