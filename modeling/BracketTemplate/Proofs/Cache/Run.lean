import Mathlib
import BracketTemplate.Proofs.Cache.Lookup

/-!
# A cache in use

A cache and the files below it change by turns: files are written and removed, the policy is set,
pages are got.  `Site.run` goes through such events, in any order and of any number.

Every page that is in the cache after a run has been compiled in the course of it.  There is an
event that got it, and what the page holds is what its compile made of the files as they were then
(`Site.IsNew.run_page`).  All that has happened since is in the events behind that one: a look that
found the page good, or one that failed, leaves it as it is.
-/

namespace BracketTemplate

/-- The files as they are, and a cache for pages among them. -/
structure Site where
  files : FileTree
  cache : Cache

/-- What can happen. -/
inductive Event where
  /-- Other files are there now. -/
  | change (entries : List (Place × FileEntry))
  | setPolicy (policy : ReloadPolicy)
  /-- A page is got, at some time, with a number for the template that may be made. -/
  | get (name : String) (now : Int) (identity : Nat)

namespace Site

/-- The state of the world, at some time. -/
def occasion (site : Site) (now : Int) (identity : Nat) : Occasion := ⟨site.files, now, identity⟩

/-- What comes of getting a page. -/
def get (site : Site) (name : String) (now : Int) (identity : Nat) :
    Except TemplateError (Option Template) :=
  (site.cache.get (site.occasion now identity) name).1

/-- What an event makes of files and cache. -/
def step (site : Site) : Event → Site
  | .change entries => { site with files := { site.files with entries } }
  | .setPolicy policy => { site with cache := site.cache.withPolicy policy }
  | .get name now identity =>
    { site with cache := (site.cache.get (site.occasion now identity) name).2 }

/-- What events make of files and cache, one after the other. -/
def run (site : Site) (events : List Event) : Site := events.foldl step site

/-- The cache has been made just now. -/
structure IsNew (site : Site) : Prop where
  cwd : site.files.cwdPath.hasParentSegment = false
  created : ∃ dir policy evaluator,
    Cache.create dir site.files.cwdPath policy evaluator = .ok site.cache

variable {site : Site}

@[simp] lemma run_nil (site : Site) : site.run [] = site := rfl

@[simp] lemma run_cons (site : Site) (event : Event) (events : List Event) :
    site.run (event :: events) = (site.step event).run events := rfl

lemma run_append (site : Site) (events others : List Event) :
    site.run (events ++ others) = (site.run events).run others := List.foldl_append

/-! ## What stays -/

/-- Files change, and the current directory does not. -/
@[simp] lemma cwdPath_run (site : Site) (events : List Event) :
    (site.run events).files.cwdPath = site.files.cwdPath := by
  induction events generalizing site with
  | nil => rfl
  | cons event events ih =>
    rw [run_cons, ih]
    cases event <;> rfl

lemma IsNew.cwd_occasion (hnew : site.IsNew) (events : List Event) (now : Int) (identity : Nat) :
    ((site.run events).occasion now identity).files.cwdPath.hasParentSegment = false := by
  rw [occasion, cwdPath_run]
  exact hnew.cwd

lemma fixed_step (site : Site) (event : Event) :
    (site.step event).cache.rootdir = site.cache.rootdir ∧
      (site.step event).cache.evaluator = site.cache.evaluator := by
  cases event with
  | change => exact ⟨rfl, rfl⟩
  | setPolicy => exact ⟨rfl, rfl⟩
  | get name now identity =>
    rw [step, Cache.get_snd]
    exact (Cache.lookup_looked _ _ _).fixed

@[simp] lemma rootdir_run (site : Site) (events : List Event) :
    (site.run events).cache.rootdir = site.cache.rootdir := by
  induction events generalizing site with
  | nil => rfl
  | cons event events ih => rw [run_cons, ih, (site.fixed_step event).1]

@[simp] lemma evaluator_run (site : Site) (events : List Event) :
    (site.run events).cache.evaluator = site.cache.evaluator := by
  induction events generalizing site with
  | nil => rfl
  | cons event events ih => rw [run_cons, ih, (site.fixed_step event).2]

@[simp] lemma pathOf_run (site : Site) (events : List Event) (name : String) :
    (site.run events).cache.pathOf name = site.cache.pathOf name := by
  rw [Cache.pathOf, Cache.pathOf, rootdir_run]

/-! ## Where the pages of a cache come from -/

/-- **The history of a page.**  A page of the cache has been compiled at some event, from the files
as they were then. -/
theorem IsNew.run_page (hnew : site.IsNew) {events : List Event} {name : String} {page : Page}
    (h : (site.run events).cache.page? name = some page) :
    ∃ before now identity after, events = before ++ .get name now identity :: after ∧
      site.cache.pathOf name = .ok page.path ∧
      Page.compile ((site.run before).occasion now identity) site.cache.evaluator
        site.cache.rootdir page.path = .ok { page with checkedAt := now } := by
  induction events using List.reverseRecOn generalizing name page with
  | nil =>
    obtain ⟨dir, policy, evaluator, hcreate⟩ := hnew.created
    obtain ⟨rootdir, -, hcache⟩ := Source.bind_eq_ok.1 hcreate
    have hpages : site.cache.pages = [] := by
      rw [← Except.ok.inj hcache]
    rw [run_nil, Cache.page?, hpages] at h
    cases h
  | append_singleton events event ih =>
    -- a page that was there before the event has its history in the events before
    have hbefore : ∀ page, (site.run events).cache.page? name = some page →
        ∃ before now identity after,
          events ++ [event] = before ++ .get name now identity :: after ∧
          site.cache.pathOf name = .ok page.path ∧
          Page.compile ((site.run before).occasion now identity) site.cache.evaluator
            site.cache.rootdir page.path = .ok { page with checkedAt := now } := by
      intro page hpage
      obtain ⟨before, now, identity, after, rfl, hhistory⟩ := ih hpage
      exact ⟨before, now, identity, after ++ [event], by simp, hhistory⟩
    rw [run_append] at h
    cases event with
    | change entries => exact hbefore page h
    | setPolicy policy => exact hbefore page h
    | get got now identity =>
      rw [run_cons, run_nil, step, Cache.get_snd] at h
      rcases Cache.page?_of_lookup h with ⟨page, hpage, time, rfl⟩ | ⟨rfl, hpath, hcompile⟩
      · exact hbefore page hpage
      · refine ⟨events, now, identity, [], rfl, ?_, ?_⟩
        · rcases hpath with hpath | ⟨old, hold, hpath⟩
          · rwa [pathOf_run] at hpath
          · obtain ⟨-, -, -, -, -, hpathOf, -⟩ := ih hold
            rw [hpathOf, hpath]
        · rw [rootdir_run, evaluator_run] at hcompile
          obtain rfl : now = page.checkedAt := (Page.compile_eq_ok.1 hcompile).2.2.2.symm
          exact hcompile

/-- A site with a page that includes a header. -/
def headed : Site where
  files := {
    entries := [([['w']], .directory),
      ([['w'], "page".toList], .file (Utf8.encode "[<header]body".toList) 1),
      ([['w'], "header".toList], .file (Utf8.encode "H".toList) 2)]
    cwd := [['w']] }
  cache := { rootdir := ⟨['/', 'w']⟩, policy := .immediate, pages := [], evaluator := .idle }

/-- Its files with another header. -/
def reheaded : FileTree :=
  headed.files.set [['w'], "header".toList] (.file (Utf8.encode "N".toList) 20)

lemma headed_isNew : headed.IsNew where
  cwd := by decide +kernel
  created := by
    have hroot : (Path.mk ['/', 'w']).absolutize headed.files.cwdPath = .ok ⟨['/', 'w']⟩ := by
      decide +kernel
    refine ⟨⟨['/', 'w']⟩, .immediate, .idle, ?_⟩
    rw [Cache.create, hroot]
    rfl

end Site

end BracketTemplate
