import Mathlib
import BracketTemplate.Proofs.Cache.Missing
import BracketTemplate.Proofs.Cache.Reads

/-!
# Making templates anew

Where a look-up compiles the file of a page (`Cache.Compiles`), getting the page comes to what
making the template of that file comes to (`Site.Remakes`).  When it is the file itself that is
wanting, there is said to be no page.

What becomes of a page that is in the cache, and of one that is not, is told by `Cache.fate` and
`Cache.fate_new`: it stays, but for the time of the last look, unless a compile of its file
succeeds.
-/

namespace BracketTemplate

/-- The file of a page is wanting: it has a directory around it, and is not there, or is a directory
itself. -/
def FileTree.Wants (tree : FileTree) (path : Path) : Prop :=
  ∃ file, path.absolutize tree.cwdPath = .ok file ∧ file.parent? ≠ none ∧ tree.Lacks file

namespace Template

variable {tree : FileTree} {evaluator : Evaluator} {identity : Nat} {path : Path}
  {rootdir : Option Path} {e : TemplateError}

/-- No template is made of a file that is wanting. -/
lemma ofFile_wants (h : tree.Wants path) :
    ∃ e, ofFile evaluator tree identity path rootdir = .error e ∧ e.isMissing = true := by
  obtain ⟨file, habsolute, hparent, fault, hread, hmissing⟩ := h
  obtain ⟨dir, hdir⟩ := Option.ne_none_iff_exists'.1 hparent
  have htext : tree.readText file = .error fault := by rw [FileTree.readText, hread]
  have hsource : Source.ofFile tree path rootdir = .error (.io file fault) := by
    refine Source.bind_eq_error.2 (.inr ⟨file, habsolute, ?_⟩)
    simp only [hdir, htext]
  exact ⟨.io file fault, Source.bind_eq_error.2 (.inl hsource), hmissing⟩

/-- **What is missing when no template is made for want of a file.** -/
theorem isMissing_iff (hcwd : tree.cwdPath.hasParentSegment = false)
    (h : ofFile evaluator tree identity path rootdir = .error e) :
    e.isMissing = true ↔ tree.Wants path := by
  constructor
  · intro hmissing
    obtain ⟨file, fault, habsolute, hread, hfault⟩ := ofFile_isMissing hcwd h hmissing
    refine ⟨file, habsolute, fun hparent => ?_, .of_readText hread hfault⟩
    -- without a directory around it the file is refused before it is read
    have hrefused : Source.ofFile tree path rootdir = .error (.security file .noParent) := by
      refine Source.bind_eq_error.2 (.inr ⟨file, habsolute, ?_⟩)
      simp only [hparent]
    have hsame : ofFile evaluator tree identity path rootdir = .error (.security file .noParent) :=
      Source.bind_eq_error.2 (.inl hrefused)
    rw [hsame] at h
    cases h
    cases hmissing
  · intro hwants
    obtain ⟨e', he', hmissing⟩ := ofFile_wants hwants
    rw [he'] at h
    cases h
    exact hmissing

end Template

namespace Cache

variable {o : Occasion} {c : Cache} {name other : String} {path : Path} {page fresh : Page}

/-! ## The names of a cache -/

/-- The names that there are pages under. -/
def names (c : Cache) : List String := c.pages.map (·.1)

lemma any_eq_isSome_page? (c : Cache) (name : String) :
    c.pages.any (·.1 == name) = (c.page? name).isSome := by
  rw [page?]
  induction c.pages with
  | nil => rfl
  | cons entry rest ih =>
    obtain ⟨n, p⟩ := entry
    rw [List.any_cons, ih, lookup_cons_eq_ite]
    by_cases hn : name = n
    · simp [hn]
    · simp [hn, Ne.symm hn]

/-- A name is there when there is a page under it. -/
lemma mem_names_iff : name ∈ c.names ↔ c.page? name ≠ none := by
  rw [← Option.isSome_iff_ne_none, ← any_eq_isSome_page?, List.any_eq_true, names, List.mem_map]
  simp only [beq_iff_eq]

/-- A page that is there is written in place. -/
lemma names_put_of_some (h : c.page? name = some page) (fresh : Page) :
    (c.put name fresh).names = c.names := by
  have hany : c.pages.any (·.1 == name) = true := by rw [any_eq_isSome_page?, h]; rfl
  rw [names, put, names]
  dsimp only
  rw [if_pos hany, List.map_map]
  refine List.map_congr_left fun entry _ => ?_
  dsimp only [Function.comp_apply]
  split <;> rfl

/-- A new one goes to the end. -/
lemma names_put_of_none (h : c.page? name = none) (fresh : Page) :
    (c.put name fresh).names = c.names ++ [name] := by
  have hany : ¬c.pages.any (·.1 == name) = true := by rw [any_eq_isSome_page?, h]; exact nofun
  rw [names, put, names]
  dsimp only
  rw [if_neg hany, List.map_append]
  rfl

/-- Nothing differs between two caches but when the page of a name has been looked at last. -/
structure Untouched (name : String) (c c' : Cache) : Prop where
  rootdir : c'.rootdir = c.rootdir
  policy : c'.policy = c.policy
  evaluator : c'.evaluator = c.evaluator
  names : c'.names = c.names
  page : ∀ other, ∃ time, c'.page? other = (c.page? other).map fun p => { p with checkedAt := time }
  others : ∀ other, other ≠ name → c'.page? other = c.page? other

lemma Untouched.refl (name : String) (c : Cache) : Untouched name c c where
  rootdir := rfl
  policy := rfl
  evaluator := rfl
  names := rfl
  page := fun other => by
    cases hpage : c.page? other with
    | none => exact ⟨0, rfl⟩
    | some page => exact ⟨page.checkedAt, rfl⟩
  others := fun _ _ => rfl

/-- Noting a look touches nothing else. -/
lemma untouched_put (hpage : c.page? name = some page) (o : Occasion) :
    Untouched name c (c.put name (page.checked o c.policy)) where
  rootdir := rfl
  policy := rfl
  evaluator := rfl
  names := names_put_of_some hpage _
  page := fun other => by
    rw [page?_put]
    by_cases hother : other = name
    · obtain ⟨time, htime⟩ := page.checked_eq o c.policy
      rw [if_pos hother, hother, hpage, htime]
      exact ⟨time, rfl⟩
    · rw [if_neg hother]
      exact (Untouched.refl name c).page other
  others := fun other hother => by rw [page?_put, if_neg hother]

/-! ## Look-ups that compile -/

/-- The page of a name is compiled, and is another one then. -/
def Renews (o : Occasion) (c : Cache) (name : String) (fresh : Page) : Prop :=
  ∃ path, Compiles o c name path ∧ Page.compile o c.evaluator c.rootdir path = .ok fresh

/-- What a look-up comes to that renews its page. -/
structure Renewed (name : String) (fresh : Page) (c : Cache)
    (result : Except TemplateError Template × Cache) : Prop where
  template : result.1 = .ok fresh.template
  page : result.2.page? name = some fresh
  others : ∀ other, other ≠ name → result.2.page? other = c.page? other
  names : result.2.names = if name ∈ c.names then c.names else c.names ++ [name]

lemma Renewed.of_names {result : Except TemplateError Template × Cache}
    (htemplate : result.1 = .ok fresh.template) (hpage : result.2.page? name = some fresh)
    (hothers : ∀ other, other ≠ name → result.2.page? other = c.page? other)
    (hold : c.page? name ≠ none → result.2.names = c.names)
    (hnew : c.page? name = none → result.2.names = c.names ++ [name]) :
    Renewed name fresh c result where
  template := htemplate
  page := hpage
  others := hothers
  names := by
    by_cases hname : c.page? name = none
    · rw [if_neg (mt mem_names_iff.1 (not_not.2 hname)), hnew hname]
    · rw [if_pos (mem_names_iff.2 hname), hold hname]

lemma Compiles.unique {path' : Path} (h : Compiles o c name path) (h' : Compiles o c name path') :
    path = path' := by
  cases h with
  | new hnone hpath =>
    cases h' with
    | new _ hpath' => exact Except.ok.inj (hpath.symm.trans hpath')
    | changed hpage _ => cases hnone.symm.trans hpage
  | changed hpage _ =>
    cases h' with
    | new hnone _ => cases hnone.symm.trans hpage
    | changed hpage' _ => rw [Option.some.inj (hpage.symm.trans hpage')]

/-- A compile that fails renews nothing. -/
lemma Compiles.not_renews {e : TemplateError} (h : Compiles o c name path)
    (hcompile : Page.compile o c.evaluator c.rootdir path = .error e) (fresh : Page) :
    ¬Renews o c name fresh := by
  rintro ⟨path', hcompiles, hfresh⟩
  rw [← h.unique hcompiles, hcompile] at hfresh
  cases hfresh

/-- A page that is not found changed is not renewed. -/
lemma not_renews_of_page (hpage : c.page? name = some page)
    (hchanged : page.hasChanged o c.policy ≠ .ok true) (fresh : Page) : ¬Renews o c name fresh := by
  rintro ⟨path, hcompiles, -⟩
  cases hcompiles with
  | new hnone _ => cases hnone.symm.trans hpage
  | changed hpage' hchanged' =>
    rw [Option.some.inj (hpage.symm.trans hpage')] at hchanged
    exact hchanged hchanged'

/-- **A look-up renews its page or leaves the cache untouched.**  In the second case it finds the
page that is there, if any. -/
theorem lookup_fate (o : Occasion) (c : Cache) (name : String) :
    (∃ fresh, Renews o c name fresh ∧ Renewed name fresh c (c.lookup o name)) ∨
      (∀ fresh, ¬Renews o c name fresh) ∧ Untouched name c (c.lookup o name).2 ∧
        ∀ t, (c.lookup o name).1 = .ok t →
          ∃ page, c.page? name = some page ∧ page.template = t := by
  have hlooked := lookup_looked o c name
  generalize c.lookup o name = result at hlooked
  cases hlooked with
  | refused hnone hpath =>
    refine .inr ⟨?_, .refl name c, nofun⟩
    rintro fresh ⟨path, hcompiles, -⟩
    cases hcompiles with
    | new _ hpath' => cases hpath.symm.trans hpath'
    | changed hpage _ => cases hnone.symm.trans hpage
  | failed hnone hpath hcompile =>
    exact .inr ⟨(Compiles.new hnone hpath).not_renews hcompile, .refl name c, nofun⟩
  | @compiled path fresh hnone hpath hcompile =>
    refine .inl ⟨fresh, ⟨path, .new hnone hpath, hcompile⟩, .of_names rfl ?_ ?_ ?_ ?_⟩
    · rw [page?_put, if_pos rfl]
    · intro other hother
      rw [page?_put, if_neg hother]
    · exact fun hname => absurd hnone hname
    · exact fun _ => names_put_of_none hnone fresh
  | unseen hpage hchanged =>
    refine .inr ⟨not_renews_of_page hpage ?_, untouched_put hpage o, nofun⟩
    rw [hchanged]
    exact nofun
  | kept hpage hchanged =>
    refine .inr ⟨not_renews_of_page hpage ?_, untouched_put hpage o, ?_⟩
    · rw [hchanged]
      exact nofun
    · rintro t ⟨⟩
      exact ⟨_, hpage, rfl⟩
  | stale hpage hchanged hcompile =>
    exact .inr ⟨(Compiles.changed hpage hchanged).not_renews hcompile, untouched_put hpage o, nofun⟩
  | @renewed page fresh hpage hchanged hcompile =>
    have hlook := untouched_put hpage o
    refine .inl ⟨fresh, ⟨page.path, .changed hpage hchanged, hcompile⟩, .of_names rfl ?_ ?_ ?_ ?_⟩
    · rw [page?_put, if_pos rfl]
    · intro other hother
      rw [page?_put, if_neg hother, hlook.others other hother]
    · intro _
      have hthere : (c.put name (page.checked o c.policy)).page? name =
          some (page.checked o c.policy) := by rw [page?_put, if_pos rfl]
      rw [names_put_of_some hthere, hlook.names]
    · intro hnone
      cases hnone.symm.trans hpage

/-- What a look-up comes to that renews its page. -/
lemma Renews.renewed (h : Renews o c name fresh) : Renewed name fresh c (c.lookup o name) := by
  rcases lookup_fate o c name with ⟨fresh', ⟨path', hcompiles', hfresh'⟩, hrenewed⟩ | ⟨hnot, -⟩
  · obtain ⟨path, hcompiles, hfresh⟩ := h
    rw [hcompiles.unique hcompiles', hfresh'] at hfresh
    cases hfresh
    exact hrenewed
  · exact absurd h (hnot fresh)

/-- What a look-up leaves that does not. -/
lemma untouched (h : ∀ fresh, ¬Renews o c name fresh) : Untouched name c (c.lookup o name).2 := by
  rcases lookup_fate o c name with ⟨fresh, hrenews, -⟩ | ⟨-, huntouched, -⟩
  · exact absurd hrenews (h fresh)
  · exact huntouched

/-- A look-up leaves the pages of other names as they are. -/
lemma page?_lookup_of_ne (o : Occasion) (c : Cache) (hother : other ≠ name) :
    (c.lookup o name).2.page? other = c.page? other := by
  rcases lookup_fate o c name with ⟨fresh, -, hrenewed⟩ | ⟨-, huntouched, -⟩
  · exact hrenewed.others other hother
  · exact huntouched.others other hother

lemma policy_lookup (o : Occasion) (c : Cache) (name : String) :
    (c.lookup o name).2.policy = c.policy := by
  have hlooked := lookup_looked o c name
  generalize c.lookup o name = result at hlooked
  cases hlooked <;> rfl

/-- What a look-up finds is in the cache then. -/
lemma exists_page_of_lookup {t : Template} (h : (c.lookup o name).1 = .ok t) :
    ∃ page, (c.lookup o name).2.page? name = some page ∧ page.template = t := by
  rcases lookup_fate o c name with ⟨fresh, -, hrenewed⟩ | ⟨-, huntouched, hfound⟩
  · rw [hrenewed.template] at h
    exact ⟨fresh, hrenewed.page, Except.ok.inj h⟩
  · obtain ⟨page, hpage, htemplate⟩ := hfound t h
    obtain ⟨time, hsame⟩ := huntouched.page name
    rw [hsame, hpage]
    exact ⟨_, rfl, htemplate⟩

lemma get_eq_error {e : TemplateError} (h : (c.lookup o name).1 = .error e)
    (hthere : ¬e.isMissing = true) : (c.get o name).1 = .error e := by
  unfold get
  rcases hlookup : c.lookup o name with ⟨result, after⟩
  rw [hlookup] at h
  obtain rfl : result = .error e := h
  cases e with
  | io path fault =>
    have hfault : ¬fault.isMissing = true := hthere
    dsimp only
    rw [if_neg hfault]
  | _ => rfl

end Cache

namespace Site

variable {site : Site} {name : String} {path : Path} {now : Int} {identity : Nat}

/-- Getting a page comes to what making the template of a file comes to. -/
structure Remakes (site : Site) (name : String) (path : Path) (now : Int) (identity : Nat) :
    Prop where
  made : ∀ t, Template.ofFile site.cache.evaluator site.files identity path
    (some site.cache.rootdir) = .ok t →
    site.get name now identity = .ok (some t) ∧ t.identity = identity
  wanting : site.files.Wants path → site.get name now identity = .ok none
  failed : ∀ e, Template.ofFile site.cache.evaluator site.files identity path
    (some site.cache.rootdir) = .error e → ¬site.files.Wants path →
    site.get name now identity = .error e

/-- **Where a look-up compiles a file**, getting the page comes to what making its template comes
to. -/
theorem remakes_of_compiles (hcwd : site.files.cwdPath.hasParentSegment = false)
    (h : site.cache.Compiles (site.occasion now identity) name path) :
    site.Remakes name path now identity := by
  have hfails : ∀ e, Template.ofFile site.cache.evaluator site.files identity path
      (some site.cache.rootdir) = .error e →
      (site.cache.lookup (site.occasion now identity) name).1 = .error e := by
    intro e he
    exact h.lookup_error (Source.bind_eq_error.2 (.inl he))
  constructor
  · intro t ht
    obtain ⟨page, hcompile, rfl⟩ := Page.exists_compile (o := site.occasion now identity) hcwd ht
    have hrenews : site.cache.Renews (site.occasion now identity) name page := ⟨path, h, hcompile⟩
    refine ⟨Cache.get_eq_some.2 hrenews.renewed.template, ?_⟩
    obtain ⟨s, compiled, -, -, htemplate⟩ := Template.ofFile_eq_ok.1 ht
    rw [htemplate]
  · intro hwants
    obtain ⟨e, he, hmissing⟩ := Template.ofFile_wants hwants
    exact Cache.get_eq_none.2 ⟨e, hfails e he, hmissing⟩
  · intro e he hthere
    exact Cache.get_eq_error (hfails e he) (mt (Template.isMissing_iff hcwd he).1 hthere)

end Site

end BracketTemplate
