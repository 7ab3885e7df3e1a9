import Mathlib
import BracketTemplate.Proofs.Cache.Reads
import BracketTemplate.Proofs.Evaluation.Requests

/-!
# Nothing is read outside of the root

There are three ways to files: a source includes others statically, a page is got from a cache, and
a page is included without one.  On each way the files that are read lie within the root that the
way starts from, at every depth, and names that start with a tilde or have a segment `..` are
refused with nothing read for them (`reads_within_root`).  For a page that is included without a
cache the root is that of the environment, by its absolute spelling; with a root that has none no
page is included.

That these are all the files that are read is a matter of what each way depends on: it comes to the
same in all trees that agree on them.
-/

namespace BracketTemplate

variable {σ : Type}

namespace Scene

/-- The root that pages are looked for in without a cache. -/
def pageRoot (s : Scene σ) : Path := s.env.rootdir.getD s.world.files.cwdPath

/-- The file that including a page without a cache compiles. -/
structure Compiles (s : Scene σ) (name : String) (found : Path) : Prop where
  file : s.pageFile name = .ok (s.pageRoot, found)
  /-- It is not being included already. -/
  free : s.env.including.any (·.same found) = false

/-- The files that including a page without a cache reads. -/
def Reads (s : Scene σ) (name : String) (p : Path) : Prop :=
  ∃ found, s.Compiles name found ∧ Template.Reads s.world.files found (some s.pageRoot) p

variable {s : Scene σ} {name : String} {found : Path}

lemma pageFile_refuses (s : Scene σ) (h : Path.Unsafe name.toList) :
    ∃ cause, s.pageFile name = .error (.security (.ofString name) cause) := by
  obtain ⟨cause, hresolve⟩ := Path.resolveInclude_refuses h (s.env.workdirSet.getD s.pageRoot)
    s.pageRoot
  exact ⟨cause, Source.bind_eq_error.2 (.inl hresolve)⟩

/-- A page whose name is not safe is refused. -/
lemma pageWithin_refuses (hcache : s.env.hasCache = false) (h : Path.Unsafe name.toList) :
    ∃ cause world, s.pageWithin name = (.error (.security (.ofString name) cause), world) := by
  obtain ⟨cause, hfile⟩ := s.pageFile_refuses h
  refine ⟨cause, s.world.withTemplate, ?_⟩
  unfold pageWithin
  rw [if_neg (by simp [hcache])]
  exact congrArg (·, s.world.withTemplate) (Source.bind_eq_error.2 (.inl hfile))

/-- Where the file of a page does not compile, the page is refused. -/
lemma Compiles.pageWithin_error (h : s.Compiles name found) (hcache : s.env.hasCache = false)
    {e : TemplateError}
    (he : ∀ evaluator identity,
      Template.ofFile evaluator s.world.files identity found (some s.pageRoot) = .error e) :
    s.pageWithin name = (.error e, s.world.withTemplate) := by
  have henter : enterInclude s.env.derive found =
      .ok { s.env.derive with including := s.env.including ++ [found] } :=
    enterInclude_eq_ok.2 ⟨h.free, rfl⟩
  unfold pageWithin
  rw [if_neg (by simp [hcache])]
  refine congrArg (·, s.world.withTemplate) (Source.bind_eq_error.2 (.inr ⟨_, h.file, ?_⟩))
  exact Source.bind_eq_error.2 (.inr ⟨_, henter, Source.bind_eq_error.2 (.inl (he _ _))⟩)

/-- **Which page is included depends on the texts that are read for it**, and on the current
directory: on any other files with the same ones it is the same page, in the same environment. -/
theorem pageWithin_of_reads (hcache : s.env.hasCache = false)
    (hcwd : s.world.files.cwdPath.hasParentSegment = false) {other : FileTree}
    (hsame : other.cwdPath = s.world.files.cwdPath)
    (hreads : ∀ p, s.Reads name p → other.readText p = s.world.files.readText p) :
    Scene.pageWithin ⟨s.env, { s.world with files := other }⟩ name =
      ((s.pageWithin name).1, { (s.pageWithin name).2 with files := other }) := by
  have hfile : Scene.pageFile ⟨s.env, { s.world with files := other }⟩ name = s.pageFile name := by
    unfold pageFile
    rw [hsame]
  unfold pageWithin
  rw [if_neg (by simp [hcache]), if_neg (by simp [hcache]), hfile]
  refine Prod.ext ?_ rfl
  refine Source.bind_congr_ok fun ⟨root, file⟩ hfound => ?_
  refine Source.bind_congr_ok fun env henter => ?_
  obtain ⟨rfl, -⟩ := pageFile_eq_ok hfound
  have hfree : s.env.including.any (·.same file) = false := (enterInclude_eq_ok.1 henter).1
  have hcompiles : s.Compiles name file := ⟨hfound, hfree⟩
  have htemplate := Template.ofFile_of_reads hcwd hsame fun p hp => hreads p ⟨file, hcompiles, hp⟩
  exact congrArg (fun made : Except TemplateError Template => made >>= fun t => pure (t, env))
    (htemplate _ _)

/-- With a root that has no absolute spelling every page is refused. -/
lemma pageWithin_rootless (hcache : s.env.hasCache = false) {e : TemplateError}
    (hroot : s.pageRoot.absolutize s.world.files.cwdPath = .error e) :
    ∃ e world, s.pageWithin name = (.error e, world) := by
  rcases hpage : s.pageWithin name with ⟨e | ⟨t, env⟩, world⟩
  · exact ⟨e, world, rfl⟩
  unfold pageWithin at hpage
  rw [if_neg (by simp [hcache])] at hpage
  obtain ⟨hresult, -⟩ := Prod.mk.inj hpage
  obtain ⟨⟨root, found⟩, hfile, hresult⟩ := Source.bind_eq_ok.1 hresult
  obtain ⟨_, -, hresult⟩ := Source.bind_eq_ok.1 hresult
  obtain ⟨_, htemplate, -⟩ := Source.bind_eq_ok.1 hresult
  obtain ⟨source, -, hsource, -⟩ := Template.ofFile_eq_ok.1 htemplate
  obtain ⟨rfl, -⟩ := pageFile_eq_ok hfile
  have habsolute := Source.ofFile_root hsource
  rw [show s.env.rootdir.getD s.world.files.cwdPath = s.pageRoot from rfl, hroot] at habsolute
  cases habsolute

end Scene

/-- **Nothing is read outside of the root.**  What a source that a program can make reads for its
static includes, what getting a page from a cache reads, whatever has happened to the cache and the
files before, and what including a page without a cache reads: all of it lies, by absolute paths
without `..`, within the root of the source, of the cache or of the environment.  An include whose
name is not safe is met with a security error, before anything is read for it; this is the error of
the compile, or of getting the page, and a page that is included gets a mark.  Each way depends on
what it reads and on no other text; getting a page also depends on the times that it looks at.

The root of an environment counts by its absolute spelling.  Where something is read it has one,
unless it is the empty path; and with a root that has none, every page that is included gets a
mark. -/
theorem reads_within_root :
    (∀ (tree : FileTree) (s : Source), tree.cwdPath.hasParentSegment = false → s.Made tree →
      (∀ p, s.Reads tree p → p.Inside s.rootdir) ∧
      (∀ i, s.Meets tree i → Path.Unsafe i.name → (∀ p, ¬ i.Reads p) ∧
        ∃ cause, ∀ accepts, s.compile accepts tree = .error (.security ⟨i.name⟩ cause)) ∧
      ∀ other : FileTree, (∀ p, s.Reads tree p → other.readText p = tree.readText p) →
        ∀ accepts, s.compile accepts other = s.compile accepts tree) ∧
    (∀ (site : Site) (events : List Event) (name : String) (now : Int) (identity : Nat),
      site.IsNew →
      (∀ p, (site.run events).cache.Reads ((site.run events).occasion now identity) name p →
        p.Inside site.cache.rootdir) ∧
      (Path.Unsafe name.toList →
        (∀ p, ¬ (site.run events).cache.Reads ((site.run events).occasion now identity) name p) ∧
        ∃ cause, (site.run events).get name now identity =
          .error (.security (.ofString name) cause)) ∧
      (∀ path s i, (site.run events).cache.Compiles ((site.run events).occasion now identity) name
          path →
        Source.ofFile (site.run events).files path (some site.cache.rootdir) = .ok s →
        s.Meets (site.run events).files i → Path.Unsafe i.name →
        ∃ cause, (site.run events).get name now identity = .error (.security ⟨i.name⟩ cause)) ∧
      ∀ other : FileTree, other.cwdPath = (site.run events).files.cwdPath →
        (∀ p, (site.run events).cache.Reads ((site.run events).occasion now identity) name p →
          other.readText p = (site.run events).files.readText p) →
        (∀ p, (site.run events).cache.Looks ((site.run events).occasion now identity) name p →
          other.modified p = (site.run events).files.modified p) →
        (site.run events).cache.get ⟨other, now, identity⟩ name =
          (site.run events).cache.get ((site.run events).occasion now identity) name) ∧
    ∀ (s : Scene σ) (name : String), s.env.hasCache = false →
      s.world.files.cwdPath.hasParentSegment = false →
      (∀ p, s.Reads name p → p.isAbsolute = true ∧ p.hasParentSegment = false ∧
        (s.pageRoot.chars ≠ [] → ∃ root, s.pageRoot.absolutize s.world.files.cwdPath = .ok root ∧
          p.Inside root)) ∧
      (∀ e, s.pageRoot.absolutize s.world.files.cwdPath = .error e → ∀ depth,
        (s.includePageWithin depth name).env = s.env.writeEscaped (Scene.includeMark name)) ∧
      (Path.Unsafe name.toList → (∀ p, ¬ s.Reads name p) ∧
        (∃ cause world, s.pageWithin name = (.error (.security (.ofString name) cause), world)) ∧
        ∀ depth,
          (s.includePageWithin depth name).env = s.env.writeEscaped (Scene.includeMark name)) ∧
      (∀ found t i, s.Compiles name found →
        Source.ofFile s.world.files found (some s.pageRoot) = .ok t →
        t.Meets s.world.files i → Path.Unsafe i.name →
        (∃ cause world, s.pageWithin name = (.error (.security ⟨i.name⟩ cause), world)) ∧
        ∀ depth,
          (s.includePageWithin depth name).env = s.env.writeEscaped (Scene.includeMark name)) ∧
      ∀ other : FileTree, other.cwdPath = s.world.files.cwdPath →
        (∀ p, s.Reads name p → other.readText p = s.world.files.readText p) →
        Scene.pageWithin ⟨s.env, { s.world with files := other }⟩ name =
          ((s.pageWithin name).1, { (s.pageWithin name).2 with files := other }) := by
  refine ⟨fun tree s hcwd hmade => ?_, fun site events name now identity hnew => ?_,
    fun s name hcache hcwd => ?_⟩
  · have hs := hmade.confined hcwd
    refine ⟨fun p => hs.inside, fun i hmeets hname => ?_,
      fun other hsame accepts => Source.compile_of_reads hs hsame accepts⟩
    obtain ⟨cause, htarget⟩ :=
      Path.resolveInclude_refuses hname i.source.workdir i.source.rootdir
    exact ⟨Inclusion.reads_nothing hname, cause, Source.compile_refused hmeets htarget⟩
  · refine ⟨fun p => hnew.reads_inside, hnew.get_refuses,
      fun path s i hcompiles hsource hmeets hname => ?_, fun other hsame hreads hlooks =>
        Cache.get_of_reads (hnew.cwd_occasion events now identity) hsame hreads hlooks⟩
    rw [← Site.rootdir_run site events] at hsource
    exact hcompiles.get_refuses hsource hmeets hname
  · refine ⟨fun p ⟨found, hcompiles, hreads⟩ => ?_, fun e hroot => ?_, fun hname => ?_,
      fun found t i hcompiles hsource hmeets hname => ?_,
      fun other => Scene.pageWithin_of_reads hcache hcwd⟩
    · obtain ⟨habsolute, hparent⟩ := hreads.grounded hcwd
      exact ⟨habsolute, hparent, fun hempty =>
        hreads.inside hcwd hempty (Scene.pageFile_eq_ok hcompiles.file).2⟩
    · obtain ⟨e, world, hpage⟩ := Scene.pageWithin_rootless hcache hroot
      exact Scene.includePageWithin_refused hpage
    · obtain ⟨cause, world, hpage⟩ := Scene.pageWithin_refuses hcache hname
      refine ⟨fun p ⟨found, hcompiles, _⟩ => ?_, ⟨cause, world, hpage⟩,
        Scene.includePageWithin_refused hpage⟩
      obtain ⟨cause, hfile⟩ := s.pageFile_refuses hname
      rw [hcompiles.file] at hfile
      cases hfile
    · obtain ⟨cause, htarget⟩ :=
        Path.resolveInclude_refuses hname i.source.workdir i.source.rootdir
      have hpage := hcompiles.pageWithin_error hcache fun evaluator identity =>
        Template.ofFile_refused hsource hmeets htarget
      exact ⟨⟨cause, _, hpage⟩, Scene.includePageWithin_refused hpage⟩

/-- A page whose header names a file outside of the root. -/
def escaping : FileTree where
  entries := [([['w']], .directory),
    ([['w'], "page".toList], .file (Utf8.encode "[<header]body".toList) 1),
    ([['w'], "header".toList], .file (Utf8.encode "[<../x]".toList) 2),
    ([['x']], .file (Utf8.encode "!".toList) 3)]
  cwd := [['w']]

/-- The source of the page. -/
def escapingPage : Source :=
  ⟨"[<header]body".toList, ⟨"/w".toList⟩, ⟨"/w".toList⟩, some ⟨"/w/page".toList⟩⟩

/-- A cache for its directory. -/
def escapingSite : Site :=
  ⟨escaping, { rootdir := ⟨"/w".toList⟩, policy := .always, pages := [], evaluator := .script }⟩

/-- A scene with that directory as the root. -/
def escapingScene : Scene Unit where
  env := { (default : Environment Unit) with rootdir := some ⟨"/w".toList⟩ }
  world := { files := escaping, now := 0, state := () }

/-- The include of the header. -/
def headerInclusion : Inclusion :=
  ⟨escaping.files.length + 1, [⟨"/w/page".toList⟩], escapingPage, "header".toList⟩

/-- The include in it. -/
def escapingInclusion : Inclusion where
  depth := escaping.files.length
  chain := [⟨"/w/header".toList⟩, ⟨"/w/page".toList⟩]
  source := escapingPage.included ⟨"/w/header".toList⟩ "[<../x]".toList
  name := "../x".toList

lemma resolve_header : Path.resolveInclude "header".toList escapingPage.workdir
    escapingPage.rootdir = .ok ⟨"/w/header".toList⟩ := by decide +kernel

lemma meets_header : escapingPage.Meets escaping headerInclusion :=
  .here (i := headerInclusion) (List.cons_ne_nil _ _) rfl

lemma meets_escaping : escapingPage.Meets escaping escapingInclusion :=
  .inside (i := escapingInclusion) (List.cons_ne_nil _ _) rfl resolve_header (by decide +kernel)
    (by decide +kernel) (.here (i := escapingInclusion) (List.cons_ne_nil _ _) rfl)

lemma ofFile_escaping :
    Source.ofFile escaping ⟨"/w/page".toList⟩ (some ⟨"/w".toList⟩) = .ok escapingPage := by
  decide +kernel

lemma escapingSite_isNew : escapingSite.IsNew where
  cwd := by decide +kernel
  created := by
    have hroot : (Path.mk "/w".toList).absolutize escaping.cwdPath = .ok ⟨"/w".toList⟩ := by
      decide +kernel
    refine ⟨⟨"/w".toList⟩, .always, .script, ?_⟩
    rw [Cache.create, show escapingSite.files = escaping from rfl, hroot]
    rfl

/-- The header is read, and what it names is not: not for a compile, not for the cache, nor for an
include. -/
theorem reads_within_root_escaping :
    (escapingPage.Reads escaping ⟨"/w/header".toList⟩ ∧
      (Path.mk "/w/header".toList).Inside escapingPage.rootdir) ∧
    (∃ cause, escapingPage.compile Program.acceptAll escaping =
      .error (.security ⟨"../x".toList⟩ cause)) ∧
    (∃ cause, escapingSite.get "page" 10 1 = .error (.security ⟨"../x".toList⟩ cause)) ∧
    (∃ cause, (escapingSite.run [.get "page" 10 1]).get "~x" 11 2 =
      .error (.security (.ofString "~x") cause)) ∧
    ∀ depth, (escapingScene.includePageWithin depth "page").env =
      escapingScene.env.writeEscaped (Scene.includeMark "page") := by
  obtain ⟨hsources, hcaches, hscenes⟩ := reads_within_root (σ := Unit)
  have hcwd : escaping.cwdPath.hasParentSegment = false := by decide +kernel
  have hname : Path.Unsafe escapingInclusion.name := .inr (by decide)
  obtain ⟨hinside, hrefused, -⟩ := hsources escaping escapingPage hcwd (.file ofFile_escaping)
  have hreads : escapingPage.Reads escaping ⟨"/w/header".toList⟩ :=
    ⟨headerInclusion, meets_header, resolve_header, by decide +kernel, by decide⟩
  obtain ⟨-, cause, hcompile⟩ := hrefused _ meets_escaping hname
  obtain ⟨-, -, hpage, -⟩ := hcaches escapingSite [] "page" 10 1 escapingSite_isNew
  obtain ⟨-, hrefuses, -⟩ := hcaches escapingSite [.get "page" 10 1] "~x" 11 2 escapingSite_isNew
  obtain ⟨-, -, -, hincluded, -⟩ := hscenes escapingScene "page" rfl hcwd
  have hpath : escapingSite.cache.pathOf "page" = .ok ⟨"/w/page".toList⟩ := by decide +kernel
  have hfile : escapingScene.pageFile "page" =
      .ok (escapingScene.pageRoot, ⟨"/w/page".toList⟩) := by decide +kernel
  exact ⟨⟨hreads, hinside _ hreads⟩, ⟨cause, hcompile _⟩,
    hpage _ _ _ (.new rfl hpath) ofFile_escaping meets_escaping hname,
    (hrefuses (.inl rfl)).2,
    (hincluded _ _ _ ⟨hfile, rfl⟩ ofFile_escaping meets_escaping hname).2⟩

end BracketTemplate
