import Mathlib
import BracketTemplate.Proofs.Cache.Run
import BracketTemplate.Proofs.Inclusion.Reads

/-!
# The files that getting a page reads

Getting a page compiles the file of its name when the cache does not have it, or when it has changed
(`Cache.Compiles`), and reads what making the template of that file reads.  All of it lies within
the root of the cache, at any time of its use (`Site.IsNew.reads_inside`).  A name that is not safe
is refused with nothing read, since no page is ever in the cache under such a name
(`Site.IsNew.get_refuses`).

What comes of getting a page, and what the cache is afterwards, depends on the texts that are read
and on the times of the files that the policy has looked at (`Cache.Looks`), and on no other file
(`Cache.get_of_reads`).
-/

namespace BracketTemplate

namespace Cache

variable {o : Occasion} {c : Cache} {name : String} {path : Path}

/-- The file that getting a page compiles. -/
inductive Compiles (o : Occasion) (c : Cache) (name : String) : Path → Prop
  | new {path : Path} (hnone : c.page? name = none) (hpath : c.pathOf name = .ok path) :
      Compiles o c name path
  | changed {page : Page} (hpage : c.page? name = some page)
      (hchanged : page.hasChanged o c.policy = .ok true) : Compiles o c name page.path

/-- The files that getting a page reads. -/
def Reads (o : Occasion) (c : Cache) (name : String) (p : Path) : Prop :=
  ∃ path, Compiles o c name path ∧ Template.Reads o.files path (some c.rootdir) p

/-- The files whose times of modification getting a page looks at. -/
inductive Looks (o : Occasion) (c : Cache) (name : String) : Path → Prop
  /-- The files of the page that the cache has, unless the policy does not ask for them. -/
  | kept {page : Page} {p : Path} (hpage : c.page? name = some page)
      (hpolicy : c.policy.watches = true) (hp : p ∈ page.template.paths) :
      Looks o c name p
  /-- The files of a page that has been compiled. -/
  | compiled {path p : Path} {t : Template} (hcompiles : Compiles o c name path)
      (ht : Template.ofFile c.evaluator o.files o.identity path (some c.rootdir) = .ok t)
      (hp : p ∈ t.paths) : Looks o c name p

/-- The page of a name lies below the root. -/
lemma startsWith_pathOf (hroot : c.rootdir.isAbsolute = true) (h : c.pathOf name = .ok path) :
    path.startsWith c.rootdir = true := by
  obtain ⟨_, -, h⟩ := Source.bind_eq_ok.1 h
  cases h
  rw [Path.startsWith_iff, Path.components_join hroot (Path.isAbsolute_dropWhile _)]
  exact List.prefix_append _ _

lemma pathOf_refuses (c : Cache) (h : Path.Unsafe name.toList) :
    ∃ cause, c.pathOf name = .error (.security (.ofString name) cause) := by
  obtain ⟨cause, hcheck⟩ := Path.checkSegments_refuses h
  exact ⟨cause, Source.bind_eq_error.2 (.inl hcheck)⟩

/-- Where the file of a page does not compile, the page is not found. -/
lemma Compiles.lookup_error (h : Compiles o c name path) {e : TemplateError}
    (he : Page.compile o c.evaluator c.rootdir path = .error e) :
    (c.lookup o name).1 = .error e := by
  cases h with
  | new hnone hpath => simp only [lookup, hnone, hpath, compileInto, he]
  | changed hpage hchanged =>
    simp only [lookup, hpage, hchanged, compileInto, rootdir_put, evaluator_put, he]

/-- Errors of path safety are handed on. -/
lemma get_security {p : Path} {cause : SecurityCause}
    (h : (c.lookup o name).1 = .error (.security p cause)) :
    (c.get o name).1 = .error (.security p cause) := by
  unfold get
  rcases hlookup : c.lookup o name with ⟨result, after⟩
  rw [hlookup] at h
  obtain rfl : result = .error (.security p cause) := h
  rfl

/-- An include of a page whose name is not safe is the error of getting the page. -/
lemma Compiles.get_refuses (h : Compiles o c name path) {s : Source} {i : Inclusion}
    (hsource : Source.ofFile o.files path (some c.rootdir) = .ok s) (hmeets : s.Meets o.files i)
    (hname : Path.Unsafe i.name) :
    ∃ cause, (c.get o name).1 = .error (.security ⟨i.name⟩ cause) := by
  obtain ⟨cause, htarget⟩ :=
    Path.resolveInclude_refuses hname i.source.workdir i.source.rootdir
  exact ⟨cause, get_security (h.lookup_error
    (Source.bind_eq_error.2 (.inl (Template.ofFile_refused hsource hmeets htarget))))⟩

/-! ### Nothing else matters -/

section

variable {other : FileTree}

/-- The newest time of the files of a page is that of these files. -/
lemma modifiedNow_congr {tree : FileTree} {t : Template}
    (h : ∀ p ∈ t.paths, other.modified p = tree.modified p) (path : Path) :
    Page.modifiedNow other path t = Page.modifiedNow tree path t := by
  rw [Page.modifiedNow, Page.modifiedNow, newestModification_congr h]

/-- Compiling a page depends on what is read, and on the times of the files of its template. -/
lemma compile_of_reads (hcwd : o.files.cwdPath.hasParentSegment = false)
    (hsame : other.cwdPath = o.files.cwdPath) {rootdir : Path} {evaluator : Evaluator}
    (hreads : ∀ p, Template.Reads o.files path (some rootdir) p →
      other.readText p = o.files.readText p)
    (hlooks : ∀ t, Template.ofFile evaluator o.files o.identity path (some rootdir) = .ok t →
      ∀ p ∈ t.paths, other.modified p = o.files.modified p) :
    Page.compile { o with files := other } evaluator rootdir path =
      Page.compile o evaluator rootdir path := by
  unfold Page.compile
  rw [Template.ofFile_of_reads hcwd hsame hreads]
  refine Source.bind_congr_ok fun t ht => ?_
  rw [modifiedNow_congr (hlooks t ht)]

/-- Whether a page has changed depends on the times of its files, if the policy asks for them. -/
lemma hasChanged_congr {policy : ReloadPolicy} {page : Page}
    (h : policy.watches = true → ∀ p ∈ page.template.paths,
      other.modified p = o.files.modified p) :
    page.hasChanged { o with files := other } policy = page.hasChanged o policy := by
  cases policy with
  | never => rfl
  | always => rfl
  | immediate =>
    rw [Page.hasChanged, Page.hasChanged, modifiedNow_congr (h rfl)]
  | debounced window =>
    rw [Page.hasChanged, Page.hasChanged, modifiedNow_congr (h rfl)]

/-- **Getting a page depends on the texts that are read and the times that are looked at**, and on
the current directory: on any other files with the same ones it comes to the same, and leaves the
same cache. -/
theorem get_of_reads (hcwd : o.files.cwdPath.hasParentSegment = false)
    (hsame : other.cwdPath = o.files.cwdPath)
    (hreads : ∀ p, c.Reads o name p → other.readText p = o.files.readText p)
    (hlooks : ∀ p, c.Looks o name p → other.modified p = o.files.modified p) :
    c.get { o with files := other } name = c.get o name := by
  have hcompile : ∀ path, Compiles o c name path →
      Page.compile { o with files := other } c.evaluator c.rootdir path =
        Page.compile o c.evaluator c.rootdir path := fun path hcompiles =>
    compile_of_reads hcwd hsame (fun p hp => hreads p ⟨path, hcompiles, hp⟩)
      fun t ht p hp => hlooks p (.compiled hcompiles ht hp)
  have hlookup : c.lookup { o with files := other } name = c.lookup o name := by
    unfold lookup
    cases hpage : c.page? name with
    | none =>
      cases hpath : c.pathOf name with
      | error e => rfl
      | ok path => simp only [compileInto, hcompile path (.new hpage hpath)]
    | some page =>
      have hsameChanged : page.hasChanged { o with files := other } c.policy =
          page.hasChanged o c.policy :=
        hasChanged_congr fun hpolicy p hp => hlooks p (.kept hpage hpolicy hp)
      have hchecked : page.checked { o with files := other } c.policy =
          page.checked o c.policy := rfl
      simp only [hsameChanged, hchecked]
      rcases hchanged : page.hasChanged o c.policy with e | _ | _
      · rfl
      · rfl
      · simp only [compileInto, rootdir_put, evaluator_put,
          hcompile page.path (.changed hpage hchanged)]
  rw [get, get, hlookup]

end

end Cache

namespace Site

variable {site : Site} {events : List Event} {name : String} {path : Path} {now : Int}
  {identity : Nat}

lemma IsNew.grounded_rootdir (hnew : site.IsNew) : site.cache.rootdir.Grounded := by
  obtain ⟨dir, policy, evaluator, hcreate⟩ := hnew.created
  obtain ⟨rootdir, habsolute, hcache⟩ := Source.bind_eq_ok.1 hcreate
  rw [← Except.ok.inj hcache]
  exact Source.grounded_of_absolutize hnew.cwd habsolute

/-- What getting a page compiles is the file of its name. -/
lemma IsNew.pathOf_compiles (hnew : site.IsNew)
    (h : (site.run events).cache.Compiles ((site.run events).occasion now identity) name path) :
    site.cache.pathOf name = .ok path := by
  cases h with
  | new _ hpath => rwa [pathOf_run] at hpath
  | changed hpage _ =>
    obtain ⟨-, -, -, -, -, hpath, -⟩ := hnew.run_page hpage
    exact hpath

/-- **Getting a page reads files within the root of the cache.** -/
theorem IsNew.reads_inside (hnew : site.IsNew) {p : Path}
    (h : (site.run events).cache.Reads ((site.run events).occasion now identity) name p) :
    p.Inside site.cache.rootdir := by
  obtain ⟨path, hcompiles, hreads⟩ := h
  have hroot := hnew.grounded_rootdir
  have hwithin := Cache.startsWith_pathOf hroot.absolute (hnew.pathOf_compiles hcompiles)
  rw [rootdir_run] at hreads
  obtain ⟨absolute, habsolute, hinside⟩ :=
    hreads.inside (hnew.cwd_occasion events now identity) hroot.chars_ne_nil hwithin
  rw [hroot.absolutize] at habsolute
  cases habsolute
  exact hinside.of_components (Path.components_absoluteFrom hroot.absolute _)

/-- **A page whose name is not safe is refused**, with nothing read. -/
theorem IsNew.get_refuses (hnew : site.IsNew) (hname : Path.Unsafe name.toList) :
    (∀ p, ¬ (site.run events).cache.Reads ((site.run events).occasion now identity) name p) ∧
      ∃ cause, (site.run events).get name now identity =
        .error (.security (.ofString name) cause) := by
  obtain ⟨cause, hpath⟩ := Cache.pathOf_refuses site.cache hname
  refine ⟨fun p ⟨path, hcompiles, _⟩ => ?_, cause, Cache.get_security ?_⟩
  · rw [hnew.pathOf_compiles hcompiles] at hpath
    cases hpath
  · rcases hpage : (site.run events).cache.page? name with _ | page
    · rw [← pathOf_run site events] at hpath
      simp only [Cache.lookup, hpage, hpath]
    · obtain ⟨-, -, -, -, -, hfound, -⟩ := hnew.run_page hpage
      rw [hfound] at hpath
      cases hpath

end Site

end BracketTemplate
