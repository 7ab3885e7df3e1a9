import Mathlib
import BracketTemplate.Proofs.Cache.Run

/-!
# Pages that are not there

When getting a page says that there is none, its file cannot be read, as it should be, or a file of
the template that the cache has is gone (`Site.get_none`).  In the second case the page itself may
well be there.  The policies that look at times ask for those of all files that the page was
compiled from, and take the want of any one of them for the want of the page.  It stays so after the
page has stopped including the file that is gone, since only a compile could tell, and the look
comes first (`Site.get_none_unheaded`).
-/

namespace BracketTemplate

/-- Where a path leads there is no file: there is nothing, or a directory, or the path goes on below
something that is no directory. -/
def FileTree.Lacks (tree : FileTree) (p : Path) : Prop :=
  ∃ fault, tree.readBytes p = .error fault ∧ fault.isMissing = true

namespace FileTree

variable {tree : FileTree} {p : Path} {fault : FileFault}

/-- A file that cannot be read as a text because it is missing is lacking. -/
lemma Lacks.of_readText (h : tree.readText p = .error fault) (hmissing : fault.isMissing = true) :
    tree.Lacks p := by
  unfold readText at h
  split at h
  · split at h <;> cases h
    cases hmissing
  next hread =>
    cases h
    exact ⟨_, hread, hmissing⟩

lemma Lacks.of_modified (h : tree.modified p = .error fault) (hmissing : fault.isMissing = true) :
    tree.Lacks p :=
  ⟨fault, by rw [readBytes, modified_eq_error.1 h], hmissing⟩

end FileTree

namespace Site

variable {site : Site}

/-- The file of the page of a name. -/
def IsFileOf (site : Site) (name : String) (file : Path) : Prop :=
  ∃ path, site.cache.pathOf name = .ok path ∧ path.absolutize site.files.cwdPath = .ok file

/-- A page in the cache has the path of its name, and a file. -/
lemma IsNew.page_file (hnew : site.IsNew) {events : List Event} {name : String} {page : Page}
    (h : (site.run events).cache.page? name = some page) :
    site.cache.pathOf name = .ok page.path ∧ ∃ file, site.IsFileOf name file := by
  obtain ⟨before, now, identity, -, -, hpath, hcompile⟩ := hnew.run_page h
  obtain ⟨s, c, hsource, -, -⟩ := Template.ofFile_eq_ok.1 (Page.compile_eq_ok.1 hcompile).1
  obtain ⟨file, habsolute, -⟩ :=
    Source.ofFile_fields (hnew.cwd_occasion before now identity) hsource
  rw [occasion, cwdPath_run] at habsolute
  exact ⟨hpath, file, page.path, hpath, habsolute⟩

/-- A page that cannot be compiled for want of a file lacks its own. -/
lemma IsNew.compile_lacks (hnew : site.IsNew) {events : List Event} {name : String} {path : Path}
    (hpath : site.cache.pathOf name = .ok path) {now : Int} {identity : Nat}
    {evaluator : Evaluator} {rootdir : Path} {e : TemplateError}
    (h : Page.compile ((site.run events).occasion now identity) evaluator rootdir path = .error e)
    (hmissing : e.isMissing = true) :
    ∃ file, site.IsFileOf name file ∧ (site.run events).files.Lacks file := by
  obtain ⟨file, fault, habsolute, hread, hfault⟩ :=
    Page.compile_isMissing (hnew.cwd_occasion events now identity) h hmissing
  rw [occasion, cwdPath_run] at habsolute
  exact ⟨file, ⟨path, hpath, habsolute⟩, .of_readText hread hfault⟩

/-- A look-up that fails for want of a file lacks that of the page, or another one that a policy
looks at. -/
lemma IsNew.lookup_lacks (hnew : site.IsNew) {events : List Event} {name : String} {now : Int}
    {identity : Nat} {e : TemplateError}
    (h : ((site.run events).cache.lookup ((site.run events).occasion now identity) name).1 =
      .error e)
    (hmissing : e.isMissing = true) :
    ∃ file, site.IsFileOf name file ∧ ((site.run events).files.Lacks file ∨
      ∃ page, (site.run events).cache.page? name = some page ∧
        (site.run events).cache.policy.watches = true ∧
        ∃ p ∈ page.template.paths, p ≠ file ∧ (site.run events).files.Lacks p) := by
  have hlooked := Cache.lookup_looked ((site.run events).occasion now identity)
    (site.run events).cache name
  generalize (site.run events).cache.lookup _ name = result at h hlooked
  cases hlooked with
  | refused hnone hpath =>
    cases h
    rcases Source.bind_eq_error.1 hpath with hcheck | ⟨_, -, hpath⟩
    · rw [Path.isMissing_checkSegments hcheck] at hmissing
      cases hmissing
    · cases hpath
  | failed hnone hpath hcompile =>
    cases h
    rw [pathOf_run] at hpath
    obtain ⟨file, hfile, hlacks⟩ := hnew.compile_lacks hpath hcompile hmissing
    exact ⟨file, hfile, .inl hlacks⟩
  | stale hpage hchanged hcompile =>
    cases h
    obtain ⟨file, hfile, hlacks⟩ := hnew.compile_lacks (hnew.page_file hpage).1 hcompile hmissing
    exact ⟨file, hfile, .inl hlacks⟩
  | @unseen page _ hpage hchanged =>
    -- the one case in which a file other than that of the page may be the one that is lacking
    cases h
    obtain ⟨-, file, hfile⟩ := hnew.page_file hpage
    obtain ⟨hwatches, fault, hnewest, hfault⟩ := page.hasChanged_isMissing hchanged hmissing
    obtain ⟨p, hp, hmodified⟩ := exists_fault hnewest
    have hlacks := FileTree.Lacks.of_modified hmodified hfault
    by_cases hown : p = file
    · exact ⟨file, hfile, .inl (hown ▸ hlacks)⟩
    · exact ⟨file, hfile, .inr ⟨page, hpage, hwatches, p, hp, hown, hlacks⟩⟩
  | compiled | kept | renewed => cases h

/-- **When there is said to be no page.**  Its own file is lacking, or the policy looks at times and
another file of the page in the cache is.  And whenever one of the files is lacking to such a
policy, there is said to be no page. -/
theorem get_none (hnew : site.IsNew) (events : List Event) (name : String) (now : Int)
    (identity : Nat) :
    ((site.run events).get name now identity = .ok none →
      ∃ file, site.IsFileOf name file ∧ ((site.run events).files.Lacks file ∨
        ∃ page, (site.run events).cache.page? name = some page ∧
          (site.run events).cache.policy.watches = true ∧
          ∃ p ∈ page.template.paths, p ≠ file ∧ (site.run events).files.Lacks p)) ∧
    ∀ page fault, (site.run events).cache.page? name = some page →
      (site.run events).cache.policy.watches = true →
      newestModification (site.run events).files page.template.paths = .error fault →
      fault.isMissing = true → (site.run events).get name now identity = .ok none := by
  constructor
  · intro h
    obtain ⟨e, hlookup, hmissing⟩ := Cache.get_eq_none.1 h
    exact hnew.lookup_lacks hlookup hmissing
  · intro page fault hpage hwatches hnewest hmissing
    have hfault := Page.hasChanged_fault hwatches
      (o := (site.run events).occasion now identity) hnewest
    exact Cache.get_eq_none.2 ⟨_, Cache.lookup_unseen hpage hfault, hmissing⟩

/-- A page is got, and then its header is removed. -/
def unheading : List Event :=
  [.get "page" 10 1,
    .change (headed.files.entries.filter fun entry => entry.1 ≠ [['w'], "header".toList])]

theorem get_none_removed :
    ∃ file, headed.IsFileOf "page" file ∧ ((headed.run unheading).files.Lacks file ∨
      ∃ page, (headed.run unheading).cache.page? "page" = some page ∧
        (headed.run unheading).cache.policy.watches = true ∧
        ∃ p ∈ page.template.paths, p ≠ file ∧ (headed.run unheading).files.Lacks p) :=
  (get_none headed_isNew unheading "page" 30 2).1 (by decide +kernel)

/-- There is said to be no page when the header is gone.  So it is after the page has been written
anew without it, while a compile would find nothing wrong. -/
theorem get_none_unheaded :
    headed.IsFileOf "page" ⟨"/w/page".toList⟩ ∧
      (headed.run unheading).files.readText ⟨"/w/page".toList⟩ = .ok "[<header]body".toList ∧
      (headed.run unheading).get "page" 30 2 = .ok none ∧
      ∃ entries t,
        Template.ofFile .idle ((headed.run unheading).step (.change entries)).files 2
          ⟨"/w/page".toList⟩ (some ⟨['/', 'w']⟩) = .ok t ∧
        ((headed.run unheading).step (.change entries)).get "page" 30 2 = .ok none := by
  refine ⟨⟨⟨"/w/page".toList⟩, by decide +kernel, by decide +kernel⟩, by decide +kernel,
    by decide +kernel,
    ((headed.run unheading).files.set [['w'], "page".toList]
      (.file (Utf8.encode "body".toList) 20)).entries,
    ⟨2, ⟨"/w/page", [.rootdir ⟨"/w".toList⟩, .workdir ⟨"/w".toList⟩, .emit "body"],
      [⟨"/w/page".toList⟩]⟩, .idle⟩, by decide +kernel, by decide +kernel⟩

end Site

end BracketTemplate
