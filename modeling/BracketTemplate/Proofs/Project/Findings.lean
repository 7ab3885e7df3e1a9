import Mathlib
import BracketTemplate.Project.Findings
import BracketTemplate.Proofs.Cache.Pages

/-!
# What linting finds

Linting gets the pages of a project one after another, of a cache that each of them is put in.  What
has been put there does not show: every page is got as it is of a cache that is empty
(`Cache.FilledFrom.get`), so the errors about pages are those of getting each of them alone
(`Findings.errors_ofPages`).  With what is known of listing and getting, linting has the errors of
the files of all pages whose places are plain, and says nothing of them only when they compile
(`Findings.pages_agree`).  A place that is not plain falls between listing and getting
(`Findings.pages_disagree`).
-/

namespace BracketTemplate

namespace Cache

variable {o : Occasion} {c d : Cache} {name : String}

/-- A cache that never looks, and that has been filled from another one, which is empty: what it
holds is what is got of that one. -/
structure FilledFrom (o : Occasion) (c d : Cache) : Prop where
  empty : ∀ name, c.page? name = none
  rootdir : d.rootdir = c.rootdir
  evaluator : d.evaluator = c.evaluator
  never : d.policy = .never
  pages : ∀ name page, d.page? name = some page → (c.lookup o name).1 = .ok page.template

lemma FilledFrom.put (h : c.FilledFrom o d) {page : Page}
    (hpage : (c.lookup o name).1 = .ok page.template) : c.FilledFrom o (d.put name page) := by
  refine ⟨h.empty, h.rootdir, h.evaluator, h.never, fun other stored hstored => ?_⟩
  rw [page?_put] at hstored
  split at hstored
  next hother =>
    cases hstored
    rw [hother, hpage]
  · exact h.pages other stored hstored

/-- **What a cache has been filled with does not show** in what is looked up, and it stays filled
so. -/
theorem FilledFrom.lookup (h : c.FilledFrom o d) (name : String) :
    (d.lookup o name).1 = (c.lookup o name).1 ∧ c.FilledFrom o (d.lookup o name).2 := by
  rcases hpage : d.page? name with _ | page
  · -- nothing is stored in either of them
    have hpath : d.pathOf name = c.pathOf name := by simp only [pathOf, h.rootdir]
    rcases hcpath : c.pathOf name with e | path
    · simp only [Cache.lookup, hpage, h.empty, hpath, hcpath]
      exact ⟨trivial, h⟩
    · have hsame : (c.lookup o name).1 = (c.compileInto o name path).1 := by
        simp only [Cache.lookup, h.empty, hcpath]
      rcases hcompile : Page.compile o c.evaluator c.rootdir path with e | page
      · simp only [Cache.lookup, hpage, h.empty, hpath, hcpath, compileInto, h.rootdir, h.evaluator,
          hcompile]
        exact ⟨trivial, h⟩
      · rw [hsame]
        simp only [Cache.lookup, hpage, hpath, hcpath, compileInto, h.rootdir, h.evaluator,
          hcompile]
        refine ⟨trivial, h.put ?_⟩
        rw [hsame, compileInto, hcompile]
  · have hstored := h.pages name page hpage
    have hlookup : d.lookup o name = (.ok page.template, d.put name page) := by
      simp only [Cache.lookup, hpage, h.never, Page.hasChanged, Page.checked]
    rw [hlookup, hstored]
    exact ⟨rfl, h.put hstored⟩

/-- Nor in what is got. -/
lemma FilledFrom.get (h : c.FilledFrom o d) (name : String) :
    (d.get o name).1 = (c.get o name).1 ∧ c.FilledFrom o (d.get o name).2 := by
  obtain ⟨hsame, hfilled⟩ := h.lookup name
  refine ⟨?_, by rwa [get_snd]⟩
  unfold Cache.get
  rcases hd : d.lookup o name with ⟨result, after⟩
  rcases hc : c.lookup o name with ⟨result', after'⟩
  rw [hd, hc] at hsame
  obtain rfl : result = result' := hsame
  rcases result with e | t
  · cases e <;> dsimp only
    split <;> rfl
  · rfl

end Cache

namespace Findings

variable {o : Occasion} {c d : Cache}

/-- What linting has to say about a page: the error of getting it. -/
def complaint (o : Occasion) (c : Cache) (name : String) : Option String :=
  match (c.get o name).1 with
  | .ok _ => none
  | .error e => some s!"{name}: {e.message}"

/-- **The errors about pages are those of getting each of them.** -/
theorem errors_ofPages (h : c.FilledFrom o d) (names : List String) :
    (ofPages o d names).errors = names.filterMap (complaint o c) := by
  induction names generalizing d with
  | nil => rfl
  | cons name rest ih =>
    obtain ⟨hsame, hfilled⟩ := h.get name
    rw [List.filterMap_cons, complaint, ← hsame, ofPages, errors_append, ih hfilled]
    rcases (d.get o name).1 with e | found <;> rfl

/-! ## Projects -/

lemma errors_when_warning (condition : Bool) (wording : String) :
    (when condition (warning wording)).errors = [] := by
  cases condition <;> rfl

/-- The cache that linting gets the pages of a cache from. -/
def linting (c : Cache) : Cache := { c with policy := .never, evaluator := .script }

variable {project dir : Path} {config : Config} {policy : ReloadPolicy} {evaluator : Evaluator}

lemma create_linting {cwd : Path} (hcreate : Cache.create dir cwd policy evaluator = .ok c) :
    Cache.create dir cwd .never .script = .ok (linting c) ∧
      (linting c).FilledFrom o (linting c) := by
  obtain ⟨rootdir, hrootdir, hcreate⟩ := Source.bind_eq_ok.1 hcreate
  cases hcreate
  exact ⟨Source.bind_eq_ok.2 ⟨rootdir, hrootdir, rfl⟩, fun _ => rfl, rfl, rfl, rfl, nofun⟩

/-- The errors about a project whose settings can be read and whose pages can be listed. -/
lemma errors_ofProject (hload : Config.load o.files project = .ok config)
    (hthere : o.files.isDirectory (config.templateRoot project) = true)
    (hcreate : Cache.create (config.templateRoot project) o.files.cwdPath policy evaluator = .ok c)
    {names : List String} (hnames : c.pageNames o.files = .ok names) :
    ∃ f, ofProject o project = .ok f ∧ f.errors = names.filterMap (complaint o (linting c)) := by
  obtain ⟨hcreate, hfilled⟩ := create_linting (o := o) hcreate
  have hnames : (linting c).pageNames o.files = .ok names := hnames
  have htemplates : ofTemplates o (config.templateRoot project) = .ok
      (when names.isEmpty (warning s!"模板目录 {(config.templateRoot project).text} 下没有页面")
        ++ ofPages o (linting c) names) := by
    unfold ofTemplates
    rw [hthere, hcreate]
    exact Source.bind_eq_ok.2 ⟨_, rfl, Source.bind_eq_ok.2 ⟨names, hnames, rfl⟩⟩
  refine ⟨_, by rw [ofProject, hload]; exact Source.bind_eq_ok.2 ⟨_, htemplates, rfl⟩, ?_⟩
  rw [errors_append, errors_append, errors_when_warning, errors_when_warning, List.nil_append,
    List.nil_append, errors_ofPages hfilled]

/-- What there is to say about the file of a page: the error of reading or compiling it. -/
def failure (o : Occasion) (c : Cache) (p : Place) : Option String :=
  match c.fileTemplate o p with
  | .ok _ => none
  | .error e => some s!"{pageName p}: {e.message}"

/-- **Listing, getting and linting agree on plain pages.**  The pages of a cache in a proper tree
are the files below its root that are not hidden and whose paths are not too long.  There is one
name for each of them in the list, and the list is in order.  The plain ones of them have different
names, and getting such a name compiles the file.  Linting has one error for each name that cannot
be got; so, when it finds none, all plain pages compile, and when all pages are plain, the errors
are those of their files. -/
theorem pages_agree {place : Place} (hproper : o.files.Proper)
    (hload : Config.load o.files project = .ok config)
    (hthere : o.files.isDirectory (config.templateRoot project) = true)
    (hcreate : Cache.create (config.templateRoot project) o.files.cwdPath policy evaluator = .ok c)
    (hroot : o.files.resolve c.rootdir = .ok (place, .directory)) :
    ∃ (places : List Place) (names : List String) (f : Findings),
      c.pageNames o.files = .ok names ∧ ofProject o project = .ok f ∧
      (∀ p, p ∈ places ↔ o.files.IsPage c.rootdir place p) ∧ places.Nodup ∧
      names.Pairwise (· ≤ ·) ∧ names.Perm (places.map pageName) ∧
      (∀ p ∈ places, ∀ q ∈ places, Plain p → Plain q → pageName p = pageName q → p = q) ∧
      (∀ p ∈ places, Plain p → (c.get o (pageName p)).1 = (c.fileTemplate o p).map some) ∧
      f.errors = names.filterMap (complaint o (linting c)) ∧
      (∀ p ∈ places, Plain p →
        complaint o (linting c) (pageName p) = failure o (linting c) p) ∧
      (f.isClean = true → ∀ p ∈ places, Plain p → ∃ t, (linting c).fileTemplate o p = .ok t) ∧
      ((∀ p ∈ places, Plain p) → f.errors.Perm (places.filterMap (failure o (linting c)))) := by
  obtain ⟨places, names, hnames, hsorted, hperm, hnodup, hplaces⟩ :=
    Cache.exists_pages hproper hcreate hroot
  obtain ⟨f, hf, herrors⟩ := errors_ofProject hload hthere hcreate hnames
  obtain ⟨hlinting, -⟩ := create_linting (o := o) hcreate
  have hisName : ∀ p ∈ places, ∀ name ∈ p, Path.IsName name := by
    intro p hp name hname
    obtain ⟨content, time, hfound⟩ := ((hplaces p).1 hp).file
    exact (hproper.isFileName hfound name (by simp [hname])).isName
  have hcomplaint : ∀ p ∈ places, Plain p →
      complaint o (linting c) (pageName p) = failure o (linting c) p := by
    intro p hp hplain
    rw [complaint, failure, Cache.get_page hproper hlinting hroot ((hplaces p).1 hp) hplain]
    rcases (linting c).fileTemplate o p with e | t <;> rfl
  refine ⟨places, names, f, hnames, hf, hplaces, hnodup, hsorted, hperm,
    fun p hp q hq hpp hpq hsame => ?_, fun p hp hplain => ?_, herrors, hcomplaint,
    fun hclean p hp hplain => ?_, fun hall => ?_⟩
  · exact pageName_injective (hisName p hp) (hisName q hq) hpp.noBackslash hpq.noBackslash hsame
  · exact Cache.get_page hproper hcreate hroot ((hplaces p).1 hp) hplain
  · -- a page that does not compile is complained about
    rcases htemplate : (linting c).fileTemplate o p with e | t
    · have hmem : pageName p ∈ names := hperm.mem_iff.2 (List.mem_map_of_mem hp)
      have hsome : complaint o (linting c) (pageName p) = some s!"{pageName p}: {e.message}" := by
        rw [hcomplaint p hp hplain, failure, htemplate]
      have herror := List.mem_filterMap.2 ⟨_, hmem, hsome⟩
      rw [← herrors, List.isEmpty_iff.1 hclean] at herror
      cases herror
    · exact ⟨t, rfl⟩
  · rw [herrors]
    have hsame : places.filterMap (complaint o (linting c) ∘ pageName) =
        places.filterMap (failure o (linting c)) :=
      List.filterMap_congr fun p hp => hcomplaint p hp (hall p hp)
    refine (hperm.filterMap _).trans ?_
    rw [List.filterMap_map, hsame]

/-! ### Two templates -/

/-- A project without settings and with two templates, of which the second one is broken. -/
def withTemplates (fine broken : String) : Occasion where
  files :=
    { entries := [(["templates".toList], .directory),
        (["templates".toList, fine.toList], .file (Utf8.encode "fine".toList) 0),
        (["templates".toList, broken.toList], .file (Utf8.encode "[<".toList) 0)]
      cwd := [] }
  now := 0
  identity := 0

/-- The cache of its templates. -/
def templatesCache : Cache := ⟨⟨"/templates".toList⟩, .never, [], .script⟩

/-- A project in the topmost directory has this cache when it has no settings. -/
lemma create_templatesCache {cwd : Path} (hcwd : cwd = ⟨['/']⟩) :
    Cache.create (Config.templateRoot {} (.ofString ".")) cwd .never .script =
      .ok templatesCache := by
  have habsolute : (Config.templateRoot {} (.ofString ".")).absolutize ⟨['/']⟩ =
      .ok ⟨"/templates".toList⟩ := by decide +kernel
  rw [Cache.create, hcwd, habsolute]
  rfl

/-- A project without a file of settings has none. -/
lemma load_of_missing {tree : FileTree} {project : Path}
    (h : tree.contains (Config.fileOf project) = false) : Config.load tree project = .ok {} := by
  unfold Config.load
  rw [h]
  rfl

/-- The pages of the two templates, and what linting finds. -/
lemma ofProject_withTemplates (fine broken : String) (names : List String)
    (hmissing : (withTemplates fine broken).files.contains (Config.fileOf (.ofString ".")) = false)
    (hthere : (withTemplates fine broken).files.isDirectory
      (Config.templateRoot {} (.ofString ".")) = true)
    (hroot : (withTemplates fine broken).files.resolve templatesCache.rootdir =
      .ok (["templates".toList], .directory))
    (hnames : (((withTemplates fine broken).files.placesBelow templatesCache.rootdir
      ["templates".toList]).map pageName).Perm names) (hsorted : names.Pairwise (· ≤ ·)) :
    templatesCache.pageNames (withTemplates fine broken).files = .ok names ∧
      ∃ f, ofProject (withTemplates fine broken) (.ofString ".") = .ok f ∧
        f.errors = names.filterMap (complaint (withTemplates fine broken) templatesCache) := by
  have hlisted : templatesCache.pageNames (withTemplates fine broken).files = .ok names := by
    rw [Cache.pageNames_eq hroot, sortNames_eq hnames hsorted]
  exact ⟨hlisted, errors_ofProject (load_of_missing hmissing) hthere (create_templatesCache rfl)
    hlisted⟩

/-- Of two templates with plain names the fine one is got, and linting has an error for the other
one. -/
theorem pages_agree_broken :
    (∃ t, (templatesCache.get (withTemplates "page" "broken") "page").1 = .ok (some t)) ∧
      ∃ f, ofProject (withTemplates "page" "broken") (.ofString ".") = .ok f ∧
        f.isClean = false := by
  have hproper : (withTemplates "page" "broken").files.Proper := by decide +kernel
  have hroot : (withTemplates "page" "broken").files.resolve templatesCache.rootdir =
      .ok (["templates".toList], .directory) := by decide +kernel
  obtain ⟨places, names, f, -, hf, hplaces, -, -, -, -, hget, -, -, hclean, -⟩ :=
    pages_agree hproper (load_of_missing (by decide +kernel)) (by decide +kernel)
      (create_templatesCache rfl) hroot
  have hpage : ["page".toList] ∈ places :=
    (hplaces _).2 ⟨⟨_, _, rfl⟩, by decide +kernel, by decide +kernel⟩
  have hbroken : ["broken".toList] ∈ places :=
    (hplaces _).2 ⟨⟨_, _, rfl⟩, by decide +kernel, by decide +kernel⟩
  have hname : pageName ["page".toList] = "page" := by decide +kernel
  refine ⟨?_, f, hf, Bool.eq_false_iff.2 fun hfine => ?_⟩
  · have hcompiles : (templatesCache.fileTemplate (withTemplates "page" "broken")
        ["page".toList]).toOption.isSome = true := by decide +kernel
    have hgot := hget _ hpage ⟨by decide +kernel, by decide +kernel⟩
    rw [hname] at hgot
    rw [hgot]
    rcases htemplate : templatesCache.fileTemplate (withTemplates "page" "broken")
      ["page".toList] with e | t
    · rw [htemplate] at hcompiles
      cases hcompiles
    · exact ⟨t, rfl⟩
  · obtain ⟨t, htemplate⟩ := hclean hfine _ hbroken ⟨by decide +kernel, by decide +kernel⟩
    have hbreaks : (templatesCache.fileTemplate (withTemplates "page" "broken")
        ["broken".toList]).toOption = none := by decide +kernel
    rw [show templatesCache.fileTemplate _ _ = .ok t from htemplate] at hbreaks
    cases hbreaks

/-- **A file with a backslash in its name is listed and not got, and one with a tilde at the start
of its name is refused.**  So a broken template is overlooked, and a fine one is found fault
with. -/
theorem pages_disagree :
    (withTemplates "~draft" "a\\b").files.IsPage templatesCache.rootdir ["templates".toList]
        ["a\\b".toList] ∧
      templatesCache.pageNames (withTemplates "~draft" "a\\b").files = .ok ["a/b", "~draft"] ∧
      (templatesCache.get (withTemplates "~draft" "a\\b") "a/b").1 = .ok none ∧
      (templatesCache.fileTemplate (withTemplates "~draft" "a\\b") ["a\\b".toList]).toOption =
        none ∧
      (templatesCache.fileTemplate (withTemplates "~draft" "a\\b") ["~draft".toList]).toOption ≠
        none ∧
      ∃ f, ofProject (withTemplates "~draft" "a\\b") (.ofString ".") = .ok f ∧
        f.errors = ["~draft: 路径不安全：~draft（不允许以 '~' 开头）"] := by
  obtain ⟨hnames, f, hf, herrors⟩ := ofProject_withTemplates "~draft" "a\\b"
    ["a/b", "~draft"] (by decide +kernel) (by decide +kernel) (by decide +kernel)
    (by decide +kernel) (by decide +kernel)
  refine ⟨⟨⟨_, _, rfl⟩, by decide +kernel, by decide +kernel⟩, hnames, by decide +kernel,
    by decide +kernel, by decide +kernel, f, hf, ?_⟩
  rw [herrors]
  decide +kernel

end Findings

end BracketTemplate
