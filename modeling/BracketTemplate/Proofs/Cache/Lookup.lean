import Mathlib
import BracketTemplate.Cache.Basic
import BracketTemplate.Proofs.Files.Changes
import BracketTemplate.Proofs.Inclusion.FromFile

/-!
# Looking up a page

`Cache.Looked` lists what can come of a look-up, one case for each way through it, with what is
known there; nothing later opens `Cache.lookup`.  Of the pages of the cache a look-up touches the
one that it is about.  It notes the time of the look, or puts in its place what has been compiled
(`Cache.page?_of_lookup`).  `Cache.get` is a look-up whose errors are read: those that say that a
file is missing mean that there is no page.
-/

namespace BracketTemplate

namespace Page

/-! ## Compiling a page -/

variable {o : Occasion} {evaluator : Evaluator} {rootdir path : Path} {page : Page}

lemma modifiedNow_eq_ok {tree : FileTree} {t : Template} {newest : Option Int} :
    modifiedNow tree path t = .ok newest ↔ newestModification tree t.paths = .ok newest := by
  unfold modifiedNow
  cases newestModification tree t.paths <;> simp

lemma modifiedNow_isMissing {tree : FileTree} {t : Template} {e : TemplateError}
    (h : modifiedNow tree path t = .error e) (hmissing : e.isMissing = true) :
    ∃ fault, newestModification tree t.paths = .error fault ∧ fault.isMissing = true := by
  unfold modifiedNow at h
  split at h
  · cases h
  next fault hfault =>
    cases h
    exact ⟨fault, hfault, hmissing⟩

/-- A page that has been compiled holds the template of its file and the newest time of its
files. -/
lemma compile_eq_ok :
    compile o evaluator rootdir path = .ok page ↔
      Template.ofFile evaluator o.files o.identity path (some rootdir) = .ok page.template ∧
      newestModification o.files page.template.paths = .ok page.modified ∧
      page.path = path ∧ page.checkedAt = o.now := by
  unfold compile
  rw [Source.bind_eq_ok]
  constructor
  · rintro ⟨t, htemplate, h⟩
    obtain ⟨newest, hnewest, h⟩ := Source.bind_eq_ok.1 h
    cases h
    exact ⟨htemplate, modifiedNow_eq_ok.1 hnewest, rfl, rfl⟩
  · rintro ⟨htemplate, hnewest, rfl, hchecked⟩
    refine ⟨page.template, htemplate, Source.bind_eq_ok.2 ⟨_, modifiedNow_eq_ok.2 hnewest, ?_⟩⟩
    rw [← hchecked]
    rfl

/-- The files of a template that has just been made have times. -/
lemma exists_newest (hcwd : o.files.cwdPath.hasParentSegment = false) {root : Option Path}
    {t : Template}
    (h : Template.ofFile evaluator o.files o.identity path root = .ok t) :
    ∃ newest, newestModification o.files t.paths = .ok newest := by
  refine exists_newestModification fun p hp => ?_
  obtain ⟨-, content, hbytes⟩ := Template.ofFile_paths hcwd h p hp
  obtain ⟨place, time, hresolve⟩ := FileTree.readBytes_eq_ok.1 hbytes
  exact ⟨_, FileTree.modified_of_resolve hresolve⟩

/-- A page can be compiled as soon as the template of its file can be made. -/
lemma exists_compile (hcwd : o.files.cwdPath.hasParentSegment = false) {t : Template}
    (h : Template.ofFile evaluator o.files o.identity path (some rootdir) = .ok t) :
    ∃ page, compile o evaluator rootdir path = .ok page ∧ page.template = t := by
  obtain ⟨newest, hnewest⟩ := exists_newest hcwd h
  exact ⟨⟨path, t, newest, o.now⟩, compile_eq_ok.2 ⟨h, hnewest, rfl, rfl⟩, rfl⟩

/-- A page that cannot be compiled for want of a file wants its own. -/
lemma compile_isMissing (hcwd : o.files.cwdPath.hasParentSegment = false) {e : TemplateError}
    (h : compile o evaluator rootdir path = .error e) (hmissing : e.isMissing = true) :
    ∃ file fault, path.absolutize o.files.cwdPath = .ok file ∧
      o.files.readText file = .error fault ∧ fault.isMissing = true := by
  rcases Source.bind_eq_error.1 h with htemplate | ⟨t, htemplate, h⟩
  · exact Template.ofFile_isMissing hcwd htemplate hmissing
  · obtain ⟨newest, hnewest⟩ := exists_newest hcwd htemplate
    rcases Source.bind_eq_error.1 h with hmodified | ⟨_, -, h⟩
    · rw [modifiedNow_eq_ok.2 hnewest] at hmodified
      cases hmodified
    · cases h

/-! ## Looking at a page -/

lemma checked_eq (o : Occasion) (policy : ReloadPolicy) (page : Page) :
    ∃ time, page.checked o policy = { page with checkedAt := time } := by
  cases policy <;> exact ⟨_, rfl⟩

end Page

/-- Whether a policy looks at the times of files. -/
def ReloadPolicy.watches : ReloadPolicy → Bool
  | .immediate | .debounced _ => true
  | .never | .always => false

lemma Page.hasChanged_isMissing {o : Occasion} {policy : ReloadPolicy} {page : Page}
    {e : TemplateError} (h : page.hasChanged o policy = .error e) (hmissing : e.isMissing = true) :
    policy.watches = true ∧ ∃ fault,
      newestModification o.files page.template.paths = .error fault ∧ fault.isMissing = true := by
  cases policy with
  | never => cases h
  | always => cases h
  | immediate =>
    rcases Source.bind_eq_error.1 h with hmodified | ⟨_, -, h⟩
    · exact ⟨rfl, modifiedNow_isMissing hmodified hmissing⟩
    · cases h
  | debounced window =>
    rcases Source.bind_eq_error.1 h with hmodified | ⟨_, -, h⟩
    · exact ⟨rfl, modifiedNow_isMissing hmodified hmissing⟩
    · split at h <;> cases h

lemma Page.hasChanged_immediate {o : Occasion} {page : Page} {newest : Option Int}
    (h : newestModification o.files page.template.paths = .ok newest) :
    page.hasChanged o .immediate = .ok (newest != page.modified) := by
  rw [Page.hasChanged, Page.modifiedNow_eq_ok.2 h]
  rfl

lemma Page.hasChanged_fault {o : Occasion} {policy : ReloadPolicy}
    (hwatches : policy.watches = true) {page : Page} {fault : FileFault}
    (h : newestModification o.files page.template.paths = .error fault) :
    page.hasChanged o policy = .error (.io page.path fault) := by
  have hmodified : Page.modifiedNow o.files page.path page.template =
      .error (.io page.path fault) := by
    rw [Page.modifiedNow, h]
  cases policy with
  | never => cases hwatches
  | always => cases hwatches
  | immediate =>
    rw [Page.hasChanged, hmodified]
    rfl
  | debounced window =>
    rw [Page.hasChanged, hmodified]
    rfl

namespace Cache

variable {o : Occasion} {c : Cache} {name other : String} {page : Page}

/-! ## The pages of a cache -/

@[simp] lemma rootdir_put : (c.put name page).rootdir = c.rootdir := rfl

@[simp] lemma evaluator_put : (c.put name page).evaluator = c.evaluator := rfl

@[simp] lemma page?_put :
    (c.put name page).page? other = if other = name then some page else c.page? other := by
  simp only [put, page?, beq_iff_eq]
  exact lookup_replace c.pages name other page

/-- What can come of a look-up. -/
inductive Looked (o : Occasion) (c : Cache) (name : String) :
    Except TemplateError Template × Cache → Prop
  | refused {e : TemplateError} (hnone : c.page? name = none) (hpath : c.pathOf name = .error e) :
      Looked o c name (.error e, c)
  | failed {path : Path} {e : TemplateError} (hnone : c.page? name = none)
      (hpath : c.pathOf name = .ok path)
      (hcompile : Page.compile o c.evaluator c.rootdir path = .error e) :
      Looked o c name (.error e, c)
  | compiled {path : Path} {page : Page} (hnone : c.page? name = none)
      (hpath : c.pathOf name = .ok path)
      (hcompile : Page.compile o c.evaluator c.rootdir path = .ok page) :
      Looked o c name (.ok page.template, c.put name page)
  | unseen {page : Page} {e : TemplateError} (hpage : c.page? name = some page)
      (hchanged : page.hasChanged o c.policy = .error e) :
      Looked o c name (.error e, c.put name (page.checked o c.policy))
  | kept {page : Page} (hpage : c.page? name = some page)
      (hchanged : page.hasChanged o c.policy = .ok false) :
      Looked o c name (.ok page.template, c.put name (page.checked o c.policy))
  | stale {page : Page} {e : TemplateError} (hpage : c.page? name = some page)
      (hchanged : page.hasChanged o c.policy = .ok true)
      (hcompile : Page.compile o c.evaluator c.rootdir page.path = .error e) :
      Looked o c name (.error e, c.put name (page.checked o c.policy))
  | renewed {page fresh : Page} (hpage : c.page? name = some page)
      (hchanged : page.hasChanged o c.policy = .ok true)
      (hcompile : Page.compile o c.evaluator c.rootdir page.path = .ok fresh) :
      Looked o c name (.ok fresh.template, (c.put name (page.checked o c.policy)).put name fresh)

/-- **Every look-up goes one of these ways.** -/
theorem lookup_looked (o : Occasion) (c : Cache) (name : String) :
    Looked o c name (c.lookup o name) := by
  unfold lookup compileInto
  rcases hpage : c.page? name with _ | page
  · rcases hpath : c.pathOf name with e | path
    · exact .refused hpage hpath
    · rcases hcompile : Page.compile o c.evaluator c.rootdir path with e | page
      · simp only [hcompile]
        exact .failed hpage hpath hcompile
      · simp only [hcompile]
        exact .compiled hpage hpath hcompile
  · rcases hchanged : page.hasChanged o c.policy with e | _ | _
    · simp only [hchanged]
      exact .unseen hpage hchanged
    · simp only [hchanged]
      exact .kept hpage hchanged
    · rcases hcompile : Page.compile o c.evaluator c.rootdir page.path with e | fresh
      · simp only [hchanged, rootdir_put, evaluator_put, hcompile]
        exact .stale hpage hchanged hcompile
      · simp only [hchanged, rootdir_put, evaluator_put, hcompile]
        exact .renewed hpage hchanged hcompile

/-- A page that cannot be looked at is not found. -/
lemma lookup_unseen {e : TemplateError} (hpage : c.page? name = some page)
    (hchanged : page.hasChanged o c.policy = .error e) : (c.lookup o name).1 = .error e := by
  simp only [lookup, hpage, hchanged]

/-- A page that is found good is the one that is there. -/
lemma lookup_kept (hpage : c.page? name = some page)
    (hchanged : page.hasChanged o c.policy = .ok false) :
    (c.lookup o name).1 = .ok page.template := by
  simp only [lookup, hpage, hchanged]

/-- A page that is not is compiled again. -/
lemma lookup_renewed {fresh : Page} (hpage : c.page? name = some page)
    (hchanged : page.hasChanged o c.policy = .ok true)
    (hcompile : Page.compile o c.evaluator c.rootdir page.path = .ok fresh) :
    (c.lookup o name).1 = .ok fresh.template := by
  simp only [lookup, hpage, hchanged, compileInto, rootdir_put, evaluator_put, hcompile]

lemma Looked.fixed {result : Except TemplateError Template × Cache} (h : Looked o c name result) :
    result.2.rootdir = c.rootdir ∧ result.2.evaluator = c.evaluator := by
  cases h <;> exact ⟨rfl, rfl⟩

/-- **What a look-up leaves in the cache.**  A page is there from before, maybe with another time of
the last look, or it is the one that was looked up and has been compiled just now. -/
theorem page?_of_lookup (h : (c.lookup o name).2.page? other = some page) :
    (∃ before, c.page? other = some before ∧
      ∃ time, page = { before with checkedAt := time }) ∨
    other = name ∧
      (c.pathOf name = .ok page.path ∨ ∃ before, c.page? name = some before ∧
        before.path = page.path) ∧
      Page.compile o c.evaluator c.rootdir page.path = .ok page := by
  have hlooked := lookup_looked o c name
  -- a page that is left as it is, or looked at, was there before
  have hsame : ∀ {before}, c.page? other = some before → page = before →
      ∃ before, c.page? other = some before ∧ ∃ time, page = { before with checkedAt := time } := by
    rintro before hbefore rfl
    exact ⟨page, hbefore, page.checkedAt, rfl⟩
  have hlook : ∀ {before}, c.page? name = some before →
      (c.put name (before.checked o c.policy)).page? other = some page →
      ∃ before, c.page? other = some before ∧ ∃ time, page = { before with checkedAt := time } := by
    intro before hbefore hput
    rw [page?_put] at hput
    split at hput
    next hother =>
      obtain ⟨time, htime⟩ := before.checked_eq o c.policy
      cases hput
      exact ⟨before, hother ▸ hbefore, time, htime⟩
    · exact hsame hput rfl
  generalize c.lookup o name = result at h hlooked
  cases hlooked with
  | refused | failed => exact .inl (hsame h rfl)
  | @compiled path fresh hnone hpath hcompile =>
    rw [page?_put] at h
    split at h
    next hother =>
      cases h
      have hcompiled := (Page.compile_eq_ok.1 hcompile).2.2.1
      rw [← hcompiled] at hpath hcompile
      exact .inr ⟨hother, .inl hpath, hcompile⟩
    · exact .inl (hsame h rfl)
  | unseen hpage => exact .inl (hlook hpage h)
  | kept hpage => exact .inl (hlook hpage h)
  | stale hpage => exact .inl (hlook hpage h)
  | @renewed before fresh hpage hchanged hcompile =>
    rw [page?_put] at h
    split at h
    next hother =>
      cases h
      have hcompiled := (Page.compile_eq_ok.1 hcompile).2.2.1
      rw [← hcompiled] at hcompile
      exact .inr ⟨hother, .inr ⟨before, hpage, hcompiled.symm⟩, hcompile⟩
    · exact .inl (hlook hpage h)

/-! ## Getting a page -/

lemma get_snd (o : Occasion) (c : Cache) (name : String) :
    (c.get o name).2 = (c.lookup o name).2 := by
  unfold get
  rcases c.lookup o name with ⟨e | t, after⟩
  · cases e <;> dsimp only
    split <;> rfl
  · rfl

/-- A page is there where the look-up finds it. -/
lemma get_eq_some {t : Template} :
    (c.get o name).1 = .ok (some t) ↔ (c.lookup o name).1 = .ok t := by
  unfold get
  rcases c.lookup o name with ⟨e | t', after⟩
  · cases e <;> dsimp only <;> try split
    all_goals simp
  · simp

/-- There is no page where the look-up fails for want of a file. -/
lemma get_eq_none :
    (c.get o name).1 = .ok none ↔ ∃ e, (c.lookup o name).1 = .error e ∧ e.isMissing = true := by
  unfold get
  rcases c.lookup o name with ⟨e | t, after⟩
  · cases e <;> dsimp only [TemplateError.isMissing] <;> try split
    all_goals simp_all
  · simp

/-- **A page that is not stored is made of its file.**  An error that says that a file is missing
means that there is no page. -/
theorem get_unstored (hcwd : o.files.cwdPath.hasParentSegment = false) (hnone : c.page? name = none)
    {path : Path} (hpath : c.pathOf name = .ok path) :
    (c.get o name).1 =
      match Template.ofFile c.evaluator o.files o.identity path (some c.rootdir) with
      | .ok t => .ok (some t)
      | .error e => if e.isMissing then .ok none else .error e := by
  have hlookup : c.lookup o name = c.compileInto o name path := by simp only [lookup, hnone, hpath]
  rcases htemplate : Template.ofFile c.evaluator o.files o.identity path (some c.rootdir) with e | t
  · have hcompile : Page.compile o c.evaluator c.rootdir path = .error e :=
      Source.bind_eq_error.2 (.inl htemplate)
    unfold get
    rw [hlookup, compileInto, hcompile]
    cases e with
    | io file fault =>
      by_cases hmissing : fault.isMissing = true <;> simp [TemplateError.isMissing, hmissing]
    | compile | eval | call | security | binding => rfl
  · obtain ⟨page, hcompile, rfl⟩ := Page.exists_compile hcwd htemplate
    refine get_eq_some.2 ?_
    rw [hlookup, compileInto, hcompile]

/-- It is there where the template can be made. -/
lemma get_unstored_eq_some (hcwd : o.files.cwdPath.hasParentSegment = false)
    (hnone : c.page? name = none) {path : Path} (hpath : c.pathOf name = .ok path) {t : Template} :
    (c.get o name).1 = .ok (some t) ↔
      Template.ofFile c.evaluator o.files o.identity path (some c.rootdir) = .ok t := by
  rw [get_unstored hcwd hnone hpath]
  rcases Template.ofFile c.evaluator o.files o.identity path (some c.rootdir) with e | t'
  · by_cases hmissing : e.isMissing = true <;> simp [hmissing]
  · simp

end Cache

end BracketTemplate
