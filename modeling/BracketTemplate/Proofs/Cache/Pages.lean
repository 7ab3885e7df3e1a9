import Mathlib
import BracketTemplate.Cache.Pages
import BracketTemplate.Proofs.Cache.Lookup
import BracketTemplate.Proofs.Files.Proper
import BracketTemplate.Proofs.Inclusion.Declared

/-!
# The pages of a cache

A cache lists its pages by walking through a directory, and gets a page by its name alone.  In a
proper tree the list has one name for each file that is not hidden and whose path is not too long,
in order (`Cache.exists_pages`).  Getting a name of the list compiles the file that it stands for
(`Cache.get_page`), as long as the place of the file is plain: a backslash in a name is written as a
slash, so that the name of the page is that of another place, and a tilde that a name starts with is
refused.  Different plain places have different names (`pageName_injective`).
-/

namespace BracketTemplate

/-! ## Names of pages -/

/-- A place that the name of its page stands for: no name holds a backslash, and the first does not
start with a tilde. -/
structure Plain (p : Place) : Prop where
  noBackslash : ∀ name ∈ p, '\\' ∉ name
  noTilde : ∀ name ∈ p.head?, name.head? ≠ some '~'

lemma pageName_of_noBackslash {p : Place} (h : ∀ name ∈ p, '\\' ∉ name) :
    pageName p = String.ofList (joinWith '/' p) := by
  have hchars : ∀ c ∈ joinWith '/' p, (if c = '\\' then '/' else c) = c := by
    intro c hc
    rw [if_neg]
    rintro rfl
    rcases mem_joinWith hc with hslash | ⟨name, hname, hmem⟩
    · cases hslash
    · exact h name hname hmem
  show String.ofList ((joinWith '/' p).map fun c => if c = '\\' then '/' else c) = _
  rw [List.map_congr_left hchars, List.map_id']

/-- **Different places have different names**, when no name holds a backslash. -/
theorem pageName_injective {p q : Place} (hp : ∀ name ∈ p, Path.IsName name)
    (hq : ∀ name ∈ q, Path.IsName name) (hpb : ∀ name ∈ p, '\\' ∉ name)
    (hqb : ∀ name ∈ q, '\\' ∉ name) (h : pageName p = pageName q) : p = q := by
  rw [pageName_of_noBackslash hpb, pageName_of_noBackslash hqb] at h
  have hjoined : joinWith '/' p = joinWith '/' q := by simpa using congrArg String.toList h
  have hparts := congrArg Path.parts hjoined
  rw [Path.parts_joinWith hp, Path.parts_joinWith hq] at hparts
  exact List.map_injective_iff.2 (fun a b hab => by simpa using hab) hparts

/-! ## Listing -/

/-- A file that the cache can list: it is not hidden, and neither is a directory that it is in below
the root, and its path is not too long. -/
structure FileTree.IsPage (tree : FileTree) (root : Path) (place p : Place) : Prop where
  file : ∃ content time, tree.find? (place ++ p) = some (.file content time)
  visible : ∀ name ∈ p, name.head? ≠ some '.'
  short : Utf8.size (root.join (pagePath p)).chars < 4096

lemma sortNames_sorted (names : List String) : (sortNames names).Pairwise (· ≤ ·) := by
  let le (a b : String) : Bool := !decide (b < a)
  have hle : ∀ {a b : String}, le a b = true ↔ a ≤ b := by
    intro a b
    rw [Bool.not_eq_true', decide_eq_false_iff_not, not_lt]
  have htrans (a b c : String) (hab : le a b = true) (hbc : le b c = true) : le a c = true :=
    hle.2 ((hle.1 hab).trans (hle.1 hbc))
  have htotal (a b : String) : (le a b || le b a) = true :=
    Bool.or_eq_true _ _ ▸ (le_total a b).imp hle.2 hle.2
  exact (List.pairwise_mergeSort htrans htotal names).imp hle.1

/-- Names have one order. -/
lemma sortNames_eq {names sorted : List String} (hperm : names.Perm sorted)
    (hsorted : sorted.Pairwise (· ≤ ·)) : sortNames names = sorted :=
  ((List.mergeSort_perm _ _).trans hperm).eq_of_pairwise (fun _ _ _ _ => le_antisymm)
    (sortNames_sorted names) hsorted

/-- The files below a directory that are not hidden and that their paths lead to. -/
def FileTree.placesBelow (tree : FileTree) (root : Path) (place : Place) : List Place :=
  (tree.filesBelow place).filter fun p => !p.any isHidden && tree.isFile (root.join (pagePath p))

namespace Cache

variable {tree : FileTree} {c : Cache} {place p : Place} {dir : Path} {policy : ReloadPolicy}
  {evaluator : Evaluator}

/-- The root of a new cache is spelled canonically. -/
lemma exists_canonical_rootdir (hproper : tree.Proper)
    (hcreate : Cache.create dir tree.cwdPath policy evaluator = .ok c) :
    ∃ twice names slash, (∀ name ∈ names, Path.IsName name) ∧
      c.rootdir = Path.canonical twice names slash := by
  obtain ⟨rootdir, hrootdir, hcreate⟩ := Source.bind_eq_ok.1 hcreate
  cases hcreate
  obtain ⟨_, hcheck, -⟩ := Source.bind_eq_ok.1 hrootdir
  obtain ⟨rfl, -⟩ := Source.isAbsolute_absolutize (Source.isAbsolute_cwdPath tree) hrootdir
  have hparent := Path.hasParentSegment_eq_false.1 (Path.checkSegments_eq_ok.1 hcheck).2
  obtain ⟨names, hnames⟩ := Path.parts_eq_names hparent
  have hall := Path.isName_of_parts hnames
  rcases habsolute : dir.isAbsolute with _ | _
  · obtain ⟨slash, hslash⟩ : ∃ slash, dir.absoluteFrom (.canonical false tree.cwd false) =
        .canonical false (tree.cwd ++ names) slash :=
      Path.absoluteFrom_relative habsolute hproper.cwd hnames
    refine ⟨false, tree.cwd ++ names, slash, fun name hname => ?_,
      by rw [tree.cwdPath_eq_canonical, hslash]⟩
    rcases List.mem_append.1 hname with hname | hname
    · exact hproper.cwd name hname
    · exact hall name hname
  · have hcomponents : dir.components = .root :: names.map .name := by
      rw [Path.components_of_isAbsolute habsolute, hnames]
    exact ⟨_, names, _, hall, Path.absoluteFrom_eq_canonical habsolute hcomponents _⟩

/-- The root stands at a place of directories. -/
lemma find?_rootdir (hproper : tree.Proper)
    (hcreate : Cache.create dir tree.cwdPath policy evaluator = .ok c)
    (hroot : tree.resolve c.rootdir = .ok (place, .directory)) :
    tree.find? place = some .directory := by
  obtain ⟨twice, names, slash, hnames, hcanonical⟩ := exists_canonical_rootdir hproper hcreate
  rw [hcanonical] at hroot
  exact (FileTree.Proper.place_of_resolve hnames hroot).2

/-- The pages of a cache are files below its root. -/
lemma isPage_ne_nil (hplace : tree.find? place = some .directory)
    (h : tree.IsPage c.rootdir place p) : p ≠ [] := by
  rintro rfl
  obtain ⟨content, time, hfound⟩ := h.file
  rw [List.append_nil, hplace] at hfound
  cases hfound

/-- The path of a page leads to its file. -/
lemma resolve_page (hproper : tree.Proper)
    (hcreate : Cache.create dir tree.cwdPath policy evaluator = .ok c)
    (hroot : tree.resolve c.rootdir = .ok (place, .directory)) {content : Bytes} {time : Int}
    (hfound : tree.find? (place ++ p) = some (.file content time)) :
    tree.resolve (c.rootdir.join (pagePath p)) =
      if 4096 ≤ Utf8.size (c.rootdir.join (pagePath p)).chars then .error .nameTooLong
      else .ok (place ++ p, .file content time) := by
  obtain ⟨twice, names, slash, hnames, hcanonical⟩ := exists_canonical_rootdir hproper hcreate
  rw [hcanonical] at hroot ⊢
  have hne : p ≠ [] := by
    rintro rfl
    rw [List.append_nil, (FileTree.Proper.place_of_resolve hnames hroot).2] at hfound
    cases hfound
  exact hproper.resolve_join hnames hroot hfound hne

lemma pageNames_eq (hroot : tree.resolve c.rootdir = .ok (place, .directory)) :
    c.pageNames tree = .ok (sortNames ((tree.placesBelow c.rootdir place).map pageName)) := by
  unfold pageNames FileTree.pagesBelow
  rw [hroot]
  rfl

/-- **A cache lists its pages**: in order, one name for each file that is not hidden. -/
theorem exists_pages (hproper : tree.Proper)
    (hcreate : Cache.create dir tree.cwdPath policy evaluator = .ok c)
    (hroot : tree.resolve c.rootdir = .ok (place, .directory)) :
    ∃ (places : List Place) (names : List String), c.pageNames tree = .ok names ∧
      names.Pairwise (· ≤ ·) ∧ names.Perm (places.map pageName) ∧ places.Nodup ∧
      ∀ p, p ∈ places ↔ tree.IsPage c.rootdir place p := by
  refine ⟨tree.placesBelow c.rootdir place, _, pageNames_eq hroot, sortNames_sorted _,
    List.mergeSort_perm _ _, (hproper.nodup_filesBelow place).filter _, fun p => ?_⟩
  rw [FileTree.placesBelow, List.mem_filter, hproper.mem_filesBelow]
  have hvisible : (!p.any isHidden) = true ↔ ∀ name ∈ p, name.head? ≠ some '.' := by
    simp [isHidden]
  have hshort : ∀ {content time}, tree.find? (place ++ p) = some (.file content time) →
      (tree.isFile (c.rootdir.join (pagePath p)) = true ↔
        Utf8.size (c.rootdir.join (pagePath p)).chars < 4096) := by
    intro content time hfound
    unfold FileTree.isFile
    rw [resolve_page hproper hcreate hroot hfound]
    split <;> split at * <;> simp_all
  rw [Bool.and_eq_true, hvisible]
  constructor
  · rintro ⟨⟨content, time, hfound⟩, hvisible, hfile⟩
    exact ⟨⟨content, time, hfound⟩, hvisible, (hshort hfound).1 hfile⟩
  · rintro ⟨⟨content, time, hfound⟩, hvisible, hfile⟩
    exact ⟨⟨content, time, hfound⟩, hvisible, (hshort hfound).2 hfile⟩

/-! ## Getting -/

/-- The template of the file of a page. -/
def fileTemplate (c : Cache) (o : Occasion) (p : Place) : Except TemplateError Template :=
  Template.ofFile c.evaluator o.files o.identity (c.rootdir.join (pagePath p)) (some c.rootdir)

/-- The path of a plain page is that of its name. -/
lemma pathOf_pageName (hnames : ∀ name ∈ p, Path.IsName name) (hplain : Plain p) :
    c.pathOf (pageName p) = .ok (c.rootdir.join (pagePath p)) := by
  have htext : Path.ofString (pageName p) = pagePath p := by
    rw [pageName_of_noBackslash hplain.noBackslash, Path.ofString, String.toList_ofList, pagePath]
  have hhead : (pagePath p).chars.head? ≠ some '/' := (Path.joinWith_ends hnames).1
  have htilde : (pagePath p).chars.head? ≠ some '~' := by
    intro htilde
    rcases p with _ | ⟨name, rest⟩
    · cases htilde
    · rw [pagePath, joinWith_cons, List.head?_append_of_ne_nil _ (hnames name (by simp)).ne_nil]
        at htilde
      exact hplain.noTilde name rfl htilde
  have hrelative : (pagePath p).isAbsolute = false := by simpa [Path.isAbsolute] using hhead
  have hparent : (pagePath p).hasParentSegment = false := by
    rw [Path.hasParentSegment_eq_false]
    show _ ∉ Path.parts (joinWith '/' p)
    rw [Path.parts_joinWith hnames]
    simp
  have hcheck : (Path.ofString (pageName p)).checkSegments = .ok () := by
    rw [htext]
    exact Path.checkSegments_eq_ok.2 ⟨htilde, hparent⟩
  have hdrop : (⟨(pageName p).toList.dropWhile (· = '/')⟩ : Path) = pagePath p := by
    have hchars : (pageName p).toList = (pagePath p).chars := congrArg Path.chars htext
    rw [hchars]
    rcases hcases : (pagePath p).chars with _ | ⟨first, rest⟩
    · rw [List.dropWhile_nil, ← hcases]
    · rw [List.dropWhile_cons_of_neg (by rw [hcases] at hhead; simpa using hhead), ← hcases]
  unfold pathOf
  rw [hcheck, hdrop]
  rfl

/-- The path of a page stays as it is when it is made absolute. -/
lemma absolutize_page (hproper : tree.Proper)
    (hcreate : Cache.create dir tree.cwdPath policy evaluator = .ok c)
    (hnames : ∀ name ∈ p, Path.IsName name) (hne : p ≠ []) :
    (c.rootdir.join (pagePath p)).absolutize tree.cwdPath = .ok (c.rootdir.join (pagePath p)) := by
  obtain ⟨twice, names, slash, hroot, hcanonical⟩ := exists_canonical_rootdir hproper hcreate
  have hall : ∀ name ∈ names ++ p, Path.IsName name := by
    intro name hname
    rcases List.mem_append.1 hname with hname | hname
    · exact hroot name hname
    · exact hnames name hname
  rw [hcanonical, pagePath, Path.canonical_join hroot hne hnames,
    (Path.grounded_canonical hall).absolutize, Path.absoluteFrom_canonical hall]

/-- **Getting a plain page compiles its file.**  It gives the template of the file, or the error of
reading or compiling it. -/
theorem get_page {o : Occasion} (hproper : o.files.Proper)
    (hcreate : Cache.create dir o.files.cwdPath policy evaluator = .ok c)
    (hroot : o.files.resolve c.rootdir = .ok (place, .directory))
    (hpage : o.files.IsPage c.rootdir place p) (hplain : Plain p) :
    (c.get o (pageName p)).1 = (c.fileTemplate o p).map some := by
  obtain ⟨content, time, hfound⟩ := hpage.file
  have hnames : ∀ name ∈ p, Path.IsName name := fun name hname =>
    (hproper.isFileName hfound name (by simp [hname])).isName
  have hne : p ≠ [] := isPage_ne_nil (find?_rootdir hproper hcreate hroot) hpage
  have hnone : c.page? (pageName p) = none := by
    obtain ⟨_, -, hcreate⟩ := Source.bind_eq_ok.1 hcreate
    cases hcreate
    rfl
  rw [get_unstored hproper.noParent_cwdPath hnone (pathOf_pageName hnames hplain), fileTemplate]
  rcases htemplate : Template.ofFile c.evaluator o.files o.identity
    (c.rootdir.join (pagePath p)) (some c.rootdir) with e | t
  · -- the file is there, so it is not missing
    have hmissing : e.isMissing = false := by
      by_contra hmissing
      obtain ⟨file, fault, habsolute, hread, hfault⟩ :=
        Template.ofFile_isMissing hproper.noParent_cwdPath htemplate (by simpa using hmissing)
      rw [absolutize_page hproper hcreate hnames hne] at habsolute
      cases habsolute
      have hresolve := resolve_page hproper hcreate hroot hfound
      rw [if_neg (Nat.not_le.2 hpage.short)] at hresolve
      rw [FileTree.readText, FileTree.readBytes, hresolve] at hread
      dsimp only at hread
      split at hread
      · cases hread
      · cases hread
        cases hfault
    dsimp only
    rw [hmissing]
    rfl
  · rfl

end Cache

end BracketTemplate
