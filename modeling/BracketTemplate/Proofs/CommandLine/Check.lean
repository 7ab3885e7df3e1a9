import Mathlib
import BracketTemplate.CommandLine.Run
import BracketTemplate.Proofs.Cache.Reads
import BracketTemplate.Proofs.Inclusion.Outside
import BracketTemplate.Proofs.Inclusion.Rerooted
import BracketTemplate.Proofs.Project.Findings

/-!
# Checking a file and getting its page

The command `check` compiles a file by itself, with the directory of the file as its root.  The
cache of a project compiles the same file with the directory of the templates as its root, and so do
the commands that render and lint.  The two agree when every rooted name that the file reaches
stands for the same below both roots (`Invocation.check_iff_get`): when there is none, say, or when
the file lies right below the directory of the templates.

A page in a directory of its own that includes a rooted name need not check although it renders, and
that is what the last theorem of the module shows (`Invocation.check_refuses`).
-/

namespace BracketTemplate

namespace Source

variable {tree : FileTree} {file path dir root absolute : Path} {text : List Char}

/-- The source of a file whose directory lies within the root. -/
lemma ofFile_within (hcwd : tree.cwdPath.hasParentSegment = false)
    (hpath : file.absolutize tree.cwdPath = .ok path) (hdir : path.parent? = some dir)
    (hread : tree.readText path = .ok text) (hroot : root.absolutize tree.cwdPath = .ok absolute)
    (hwithin : dir.startsWith absolute = true) :
    ofFile tree file (some root) =
      .ok ⟨text, dir.absoluteFrom tree.cwdPath, absolute, some path⟩ := by
  have hgrounded := grounded_of_absolutize hcwd hpath
  obtain ⟨hdirGrounded, last, hcomponents⟩ := grounded_dir hgrounded hdir hread
  have hsame : (dir.absoluteFrom tree.cwdPath).components = dir.components :=
    Path.components_absoluteFrom hdirGrounded.absolute _
  have hinRoot : (dir.absoluteFrom tree.cwdPath).ensureWithin absolute = .ok () := by
    rw [Path.ensureWithin_eq_ok, Path.startsWith_iff, hsame]
    exact Path.startsWith_iff.1 hwithin
  have hinDir : path.ensureWithin (dir.absoluteFrom tree.cwdPath) = .ok () := by
    rw [Path.ensureWithin_eq_ok, Path.startsWith_iff, hsame]
    exact ⟨[last], hcomponents.symm⟩
  have hsafe : path.checkSegments = .ok () := by
    obtain ⟨rest, hchars⟩ := List.head?_eq_some_iff.1 (of_decide_eq_true hgrounded.absolute)
    exact Path.checkSegments_eq_ok.2
      ⟨by simp [hchars], Path.hasParentSegment_eq_false.2 hgrounded.noParent⟩
  rw [(ofFile_of_read hpath hdir _).2 text hread, Option.getD_some, ofText_file hgrounded.absolute,
    hdirGrounded.absolutize, hroot]
  show ((dir.absoluteFrom tree.cwdPath).ensureWithin absolute >>= fun _ =>
    path.checkSegments >>= fun _ => path.ensureWithin (dir.absoluteFrom tree.cwdPath) >>= _) = _
  rw [hinRoot, hsafe, hinDir]
  rfl

/-- A source is made of a file that can be read. -/
lemma readable_of_ofFile {rootdir : Option Path} {s : Source}
    (h : ofFile tree file rootdir = .ok s) :
    ∃ path dir text, file.absolutize tree.cwdPath = .ok path ∧ path.parent? = some dir ∧
      tree.readText path = .ok text := by
  obtain ⟨path, hpath, h⟩ := bind_eq_ok.1 h
  split at h
  · cases h
  next dir hdir =>
  split at h
  · cases h
  next text hread => exact ⟨path, dir, text, hpath, hdir, hread⟩

/-- Without a root, the directory of a file is its root. -/
lemma ofFile_none (hpath : file.absolutize tree.cwdPath = .ok path)
    (hdir : path.parent? = some dir) : ofFile tree file none = ofFile tree file (some dir) := by
  obtain ⟨herror, hok⟩ := ofFile_of_read hpath hdir none
  obtain ⟨herror', hok'⟩ := ofFile_of_read hpath hdir (some dir)
  cases hread : tree.readText path with
  | error fault => rw [herror fault hread, herror' fault hread]
  | ok text =>
    rw [hok text hread, hok' text hread]
    rfl

lemma wellformed_iff {accepts : String → Program → Except TemplateError Unit} {s : Source} :
    s.wellformed accepts tree = true ↔ ∃ c, s.compile accepts tree = .ok c := by
  unfold wellformed
  cases s.compile accepts tree <;> simp

end Source

namespace Template

variable {tree : FileTree} {identity : Nat} {file path root absolute : Path}

/-- **A file compiles by itself where it compiles below a root**, when its rooted names stand for
the same below its own directory as below the root. -/
theorem wellformed_iff_ofFile (hcwd : tree.cwdPath.hasParentSegment = false)
    (hfile : file.absolutize tree.cwdPath = path.absolutize tree.cwdPath)
    (hroot : root.absolutize tree.cwdPath = .ok absolute)
    (hbelow : ∀ p, path.absolutize tree.cwdPath = .ok p →
      p.startsWith absolute = true ∧ p.same absolute = false)
    (halike : ∀ s, Source.ofFile tree path (some root) = .ok s → s.RootedAlike tree s.workdir) :
    (∃ s, Source.ofFile tree file none = .ok s ∧ s.wellformed Program.check tree = true) ↔
      ∃ t, ofFile .script tree identity path (some root) = .ok t := by
  by_cases hthere : ∃ p dir text, path.absolutize tree.cwdPath = .ok p ∧ p.parent? = some dir ∧
      tree.readText p = .ok text
  swap
  · -- there is no source of the file, whatever its root is
    constructor
    · rintro ⟨s, hs, -⟩
      exact absurd (hfile ▸ Source.readable_of_ofFile hs) hthere
    · rintro ⟨t, ht⟩
      obtain ⟨s, -, hs, -⟩ := ofFile_eq_ok.1 ht
      exact absurd (Source.readable_of_ofFile hs) hthere
  obtain ⟨p, dir, text, hpath, hdir, hread⟩ := hthere
  obtain ⟨hwithin, hnot⟩ := hbelow p hpath
  have hgrounded := Source.grounded_of_absolutize hcwd hpath
  obtain ⟨hdirGrounded, last, hcomponents⟩ := Source.grounded_dir hgrounded hdir hread
  -- the file is not the root itself, so its directory lies within the root
  have hdirWithin : dir.startsWith absolute = true := by
    rw [Path.startsWith_iff] at hwithin ⊢
    rw [hcomponents, List.prefix_concat_iff] at hwithin
    rcases hwithin with hsame | hprefix
    · rw [← Bool.not_eq_true, Path.same_iff, hcomponents] at hnot
      exact absurd hsame.symm hnot
    · exact hprefix
  have hbelowRoot := Source.ofFile_within hcwd hpath hdir hread hroot hdirWithin
  have hitself := Source.ofFile_within hcwd (hfile.trans hpath) hdir hread
    (hdirGrounded.absolutize tree.cwdPath) (by
      rw [Path.startsWith_iff, Path.components_absoluteFrom hdirGrounded.absolute])
  rw [← Source.ofFile_none (hfile.trans hpath) hdir] at hitself
  have hcompile := Source.compile_reroot ((Source.Made.file hbelowRoot).confined hcwd)
    ((Source.Made.file hitself).confined hcwd) (halike _ hbelowRoot)
  constructor
  · rintro ⟨s, hs, hwellformed⟩
    obtain rfl := Except.ok.inj (hitself.symm.trans hs)
    obtain ⟨c, hc⟩ := Source.wellformed_iff.1 hwellformed
    rcases hresult : Source.compile Program.check tree
      ⟨text, dir.absoluteFrom tree.cwdPath, absolute, some p⟩ with e | c'
    · rw [hresult] at hcompile
      cases hc.symm.trans hcompile
    · exact ⟨_, ofFile_eq_ok.2 ⟨_, c', hbelowRoot, hresult, rfl⟩⟩
  · rintro ⟨t, ht⟩
    obtain ⟨s, c, hs, hc, rfl⟩ := ofFile_eq_ok.1 ht
    obtain rfl := Except.ok.inj (hbelowRoot.symm.trans hs)
    have hc : Source.compile Program.check tree
      ⟨text, dir.absoluteFrom tree.cwdPath, absolute, some p⟩ = .ok c := hc
    rw [hc] at hcompile
    exact ⟨_, hitself, Source.wellformed_iff.2 ⟨_, hcompile⟩⟩

end Template

namespace Invocation

open CommandLine

variable {s : Surroundings} {project file path : Path} {config : Config} {cache : Cache}
  {policy : ReloadPolicy} {name : String}

/-- The check of a file tells whether its source compiles. -/
lemma run_check (hconfig : Config.load s.files project = .ok config) (file : Path) :
    ∃ wellformed : Bool,
      (wellformed = true ↔ ∃ source, Source.ofFile s.files file none = .ok source ∧
        source.wellformed Program.check s.files = true) ∧
      Invocation.run ⟨project, .check (some file)⟩ s =
        if wellformed then s.outcome 0 "" "ok\n" else s.outcome 1 "" "not ok\n" := by
  unfold run
  simp only [hconfig]
  unfold Surroundings.check Surroundings.source
  dsimp only
  rcases hsource : Source.ofFile s.files file none with e | source
  · exact ⟨false, by simp, rfl⟩
  · exact ⟨source.wellformed Program.check s.files, by simp, rfl⟩

/-- **Checking the file of a page agrees with getting the page**, when the rooted names that the
page reaches stand for the same below the directory of the file as below that of the templates.  The
cache has been made for the project, with any policy, and the file is not the directory of the
templates itself. -/
theorem check_iff_get (hcwd : s.files.cwdPath.hasParentSegment = false)
    (hconfig : Config.load s.files project = .ok config)
    (hcache : Cache.create (config.templateRoot project) s.files.cwdPath policy .script = .ok cache)
    (hpath : cache.pathOf name = .ok path) (hbelow : path.same cache.rootdir = false)
    (hfile : file.absolutize s.files.cwdPath = path.absolutize s.files.cwdPath)
    (halike : ∀ source, Source.ofFile s.files path (some cache.rootdir) = .ok source →
      source.RootedAlike s.files source.workdir) :
    (∃ t, (cache.get s.occasion name).1 = .ok (some t)) ∧
        Invocation.run ⟨project, .check (some file)⟩ s = s.outcome 0 "" "ok\n" ∨
      (¬∃ t, (cache.get s.occasion name).1 = .ok (some t)) ∧
        Invocation.run ⟨project, .check (some file)⟩ s = s.outcome 1 "" "not ok\n" := by
  obtain ⟨rootdir, hrootdir, hcache⟩ := Source.bind_eq_ok.1 hcache
  cases hcache
  have hrooted := Source.grounded_of_absolutize hcwd hrootdir
  have hwithin := Cache.startsWith_pathOf hrooted.absolute hpath
  have hroots : (rootdir.absoluteFrom s.files.cwdPath).components = rootdir.components :=
    Path.components_absoluteFrom hrooted.absolute _
  have hpages : ∀ p, path.absolutize s.files.cwdPath = .ok p →
      p.startsWith (rootdir.absoluteFrom s.files.cwdPath) = true ∧
        p.same (rootdir.absoluteFrom s.files.cwdPath) = false := by
    intro p hp
    obtain ⟨rfl, -⟩ := Source.isAbsolute_absolutize (Source.isAbsolute_cwdPath _) hp
    have hcomponents := Path.components_absoluteFrom
      (Path.isAbsolute_of_startsWith hwithin hrooted.absolute) s.files.cwdPath
    rw [Path.startsWith_iff, ← Bool.not_eq_true, Path.same_iff, hcomponents, hroots,
      ← Path.startsWith_iff, ← Path.same_iff, Bool.not_eq_true]
    exact ⟨hwithin, hbelow⟩
  have hcompiles : _ ↔
      ∃ t, Template.ofFile .script s.files s.occasion.identity path (some rootdir) = .ok t :=
    Template.wellformed_iff_ofFile hcwd hfile (hrooted.absolutize s.files.cwdPath) hpages halike
  have hget : (∃ t, (Cache.get s.occasion ⟨rootdir, policy, [], .script⟩ name).1 = .ok (some t)) ↔
      ∃ t, Template.ofFile .script s.files s.occasion.identity path (some rootdir) = .ok t :=
    exists_congr fun t => Cache.get_unstored_eq_some hcwd rfl hpath
  obtain ⟨wellformed, hwellformed, hrun⟩ := run_check hconfig file
  rw [hrun, hget, ← hcompiles, ← hwellformed]
  cases wellformed
  · exact .inr ⟨by simp, rfl⟩
  · exact .inl ⟨rfl, rfl⟩

/-! ### A page in a section -/

/-- A project without settings, with a page in a section that includes by a name, and with a file
`header` above it and a file `part` next to it. -/
def sectioned (name : String) : Surroundings where
  files :=
    { entries := [(["templates".toList], .directory),
        (["templates".toList, "header".toList], .file (Utf8.encode "H".toList) 0),
        (["templates".toList, "sub".toList], .directory),
        (["templates".toList, "sub".toList, "part".toList], .file (Utf8.encode "P".toList) 0),
        (["templates".toList, "sub".toList, "page".toList],
          .file (Utf8.encode ("[<".toList ++ name.toList ++ "]x".toList)) 0)]
      cwd := [] }
  now := 0
  input := []

/-- The cache of its templates. -/
def sectionedCache : Cache := ⟨⟨"/templates".toList⟩, .never, [], .script⟩

/-- No text of the project includes by a rooted name, when the page does not. -/
lemma rootedAlike_part {source : Source}
    (h : Source.ofFile (sectioned "part").files ⟨"/templates/sub/page".toList⟩
      (some ⟨"/templates".toList⟩) = .ok source) :
    source.RootedAlike (sectioned "part").files source.workdir := by
  have hsource : Source.ofFile (sectioned "part").files ⟨"/templates/sub/page".toList⟩
      (some ⟨"/templates".toList⟩) = .ok ⟨"[<part]x".toList, ⟨"/templates/sub".toList⟩,
        ⟨"/templates".toList⟩, some ⟨"/templates/sub/page".toList⟩⟩ := by decide +kernel
  obtain rfl := Except.ok.inj (hsource.symm.trans h)
  have hconfined := (Source.Made.file hsource).confined (by decide +kernel)
  refine Source.rootedAlike_of_unrooted fun t ht =>
    hconfined.unrooted_of_entries (by decide +kernel)
      (fun place content time hentry text htext => ?_) ht
  have hcontent : content = Utf8.encode "H".toList ∨ content = Utf8.encode "P".toList ∨
      content = Utf8.encode "[<part]x".toList := by
    simp only [sectioned, List.mem_cons, Prod.mk.injEq, reduceCtorEq, and_false, false_or,
      FileEntry.file.injEq, List.not_mem_nil, or_false] at hentry
    rcases hentry with ⟨-, rfl, -⟩ | ⟨-, rfl, -⟩ | ⟨-, rfl, -⟩
    · exact .inl rfl
    · exact .inr (.inl rfl)
    · exact .inr (.inr rfl)
  rcases hcontent with rfl | rfl | rfl
  · obtain rfl : text = "H".toList := Except.ok.inj (htext.symm.trans (by decide +kernel))
    decide +kernel
  · obtain rfl : text = "P".toList := Except.ok.inj (htext.symm.trans (by decide +kernel))
    decide +kernel
  · obtain rfl : text = "[<part]x".toList := Except.ok.inj (htext.symm.trans (by decide +kernel))
    decide +kernel

/-- A page has been got, when it can be told from what has been got. -/
lemma exists_page {result : Except TemplateError (Option Template)}
    (h : result.toOption.join.isSome = true) : ∃ t, result = .ok (some t) := by
  rcases result with e | _ | t
  · cases h
  · cases h
  · exact ⟨t, rfl⟩

/-- The page that includes the part next to it is in order, by itself and as a page. -/
theorem check_iff_get_part :
    (∃ t, (sectionedCache.get (sectioned "part").occasion "sub/page").1 = .ok (some t)) ∧
      Invocation.run ⟨.ofString ".", .check (some (.ofString "templates/sub/page"))⟩
        (sectioned "part") = (sectioned "part").outcome 0 "" "ok\n" := by
  have hpath : sectionedCache.pathOf "sub/page" = .ok ⟨"/templates/sub/page".toList⟩ := by
    decide +kernel
  rcases check_iff_get (by decide +kernel) (Findings.load_of_missing (by decide +kernel))
    (Findings.create_templatesCache rfl) hpath (by decide +kernel)
    (by decide +kernel : (Path.ofString "templates/sub/page").absolutize _ = _)
    (fun _ => rootedAlike_part) with hboth | ⟨hnone, -⟩
  · exact hboth
  · exact absurd (exists_page (by decide +kernel)) hnone

/-- **A page that includes a rooted name need not check although it compiles as a page.** -/
theorem check_refuses :
    (∃ t, (sectionedCache.get (sectioned "/header").occasion "sub/page").1 = .ok (some t)) ∧
      Invocation.run ⟨.ofString ".", .check (some (.ofString "templates/sub/page"))⟩
        (sectioned "/header") = (sectioned "/header").outcome 1 "" "not ok\n" := by
  refine ⟨exists_page (by decide +kernel), ?_⟩
  have hload : Config.load (sectioned "/header").files (.ofString ".") = .ok {} :=
    Findings.load_of_missing (by decide +kernel)
  obtain ⟨wellformed, hwellformed, hrun⟩ := run_check hload (.ofString "templates/sub/page")
  have hnot : wellformed = false := by
    rw [← Bool.not_eq_true, hwellformed]
    rintro ⟨source, hsource, hcompiles⟩
    have hown : Source.ofFile (sectioned "/header").files (.ofString "templates/sub/page") none =
        .ok ⟨"[</header]x".toList, ⟨"/templates/sub".toList⟩, ⟨"/templates/sub".toList⟩,
          some ⟨"/templates/sub/page".toList⟩⟩ := by decide +kernel
    obtain rfl := Except.ok.inj (hown.symm.trans hsource)
    have hfails : Source.wellformed Program.check (sectioned "/header").files
        ⟨"[</header]x".toList, ⟨"/templates/sub".toList⟩, ⟨"/templates/sub".toList⟩,
          some ⟨"/templates/sub/page".toList⟩⟩ = false := by decide +kernel
    cases hcompiles.symm.trans hfails
  rw [hrun, hnot]
  rfl

end Invocation

end BracketTemplate
