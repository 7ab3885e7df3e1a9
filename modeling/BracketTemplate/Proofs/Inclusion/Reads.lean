import Mathlib
import BracketTemplate.Proofs.Inclusion.Declared

/-!
# The files that a compile reads

Scanning a source stops at its static includes, and goes on in the files that they name.  `Comes`
follows it from include to include, in the order in which `Source.scanInto` meets them, with what it
knows at each of them: the source, the files that are being included and how many more includes may
be nested.  For an include a file is read only when its name stands for one, no file on the chain is
that one, and one more include may be nested (`Inclusion.Reads`).

All these files lie within the root of the source (`Source.Confined.inside`).  A name that is not
safe stands for none: it is the error of the whole compile, wherever it is met
(`Source.compile_refused`).  And nothing but the texts of these files matters: a tree in which they
read the same compiles the source to the same outcome (`Source.compile_of_reads`).

Making the template of a file reads the file and what its source reads (`Template.Reads`); if the
file lies within a root, all that does (`Template.Reads.inside`).
-/

namespace BracketTemplate

namespace Path

/-- An absolute path that lies within a root and has no segment `..`. -/
structure Inside (p root : Path) : Prop where
  absolute : p.isAbsolute = true
  within : p.startsWith root = true
  noParent : p.hasParentSegment = false

/-- Lying within a root is a matter of its components. -/
lemma Inside.of_components {p root other : Path} (h : p.Inside root)
    (hsame : root.components = other.components) : p.Inside other := by
  refine ⟨h.absolute, ?_, h.noParent⟩
  rw [startsWith_iff, ← hsame, ← startsWith_iff]
  exact h.within

/-- A name that starts with a tilde or has a segment `..`. -/
def Unsafe (name : List Char) : Prop :=
  name.head? = some '~' ∨ (Path.mk name).hasParentSegment = true

/-- Names that are not safe are refused for that. -/
lemma checkSegments_refuses {name : List Char} (h : Unsafe name) :
    ∃ cause, (Path.mk name).checkSegments = .error (.security ⟨name⟩ cause) := by
  unfold checkSegments
  split
  · exact ⟨_, rfl⟩
  · next htilde => exact ⟨_, if_pos (h.resolve_left htilde)⟩

lemma resolveInclude_refuses {name : List Char} (h : Unsafe name) (workdir rootdir : Path) :
    ∃ cause, resolveInclude name workdir rootdir = .error (.security ⟨name⟩ cause) := by
  obtain ⟨cause, hcheck⟩ := checkSegments_refuses h
  exact ⟨cause, Source.bind_eq_error.2 (.inl hcheck)⟩

end Path

/-- A static include that scanning has come to. -/
structure Inclusion where
  /-- The number of includes that may still be nested. -/
  depth : Nat
  /-- The files that are being included. -/
  chain : List Path
  /-- The source that it stands in. -/
  source : Source
  name : List Char

namespace Inclusion

/-- The file that the name of an include stands for. -/
def target (i : Inclusion) : Except TemplateError Path :=
  Path.resolveInclude i.name i.source.workdir i.source.rootdir

/-- The file that is read for an include. -/
structure Reads (i : Inclusion) (p : Path) : Prop where
  target : i.target = .ok p
  free : i.chain.any (·.same p) = false
  deeper : 0 < i.depth

/-- Nothing is read for an include whose name is not safe. -/
lemma reads_nothing {i : Inclusion} (h : Path.Unsafe i.name) (p : Path) : ¬ i.Reads p := by
  rintro ⟨htarget, -, -⟩
  obtain ⟨cause, hrefused⟩ := Path.resolveInclude_refuses h i.source.workdir i.source.rootdir
  rw [target, hrefused] at htarget
  cases htarget

end Inclusion

namespace Source

/-- Scanning a source from a state comes to an include, of the source or of one that it includes. -/
inductive Comes (tree : FileTree) (i : Inclusion) :
    Nat → List Path → Source → Mode → Scan.State → Prop
  | here {mode : Mode} {state next : Scan.State} {right : Bool} (hmore : state.cursor.rest ≠ [])
      (hscan : mode.scan state = (.includes i.name right, next)) :
      Comes tree i i.depth i.chain i.source mode state
  | proceed {depth : Nat} {chain : List Path} {s : Source} {mode : Mode} {state next : Scan.State}
      (hmore : state.cursor.rest ≠ []) (hscan : mode.scan state = (.proceed, next))
      (hrest : Comes tree i depth chain s mode next) : Comes tree i depth chain s mode state
  | switch {depth : Nat} {chain : List Path} {s : Source} {mode other : Mode}
      {state next : Scan.State} (hmore : state.cursor.rest ≠ [])
      (hscan : mode.scan state = (.switch other, next))
      (hrest : Comes tree i depth chain s other next) : Comes tree i depth chain s mode state
  /-- The include is in the file of another. -/
  | inside {depth : Nat} {chain : List Path} {s : Source} {mode : Mode} {state next : Scan.State}
      {name text : List Char} {right : Bool} {target : Path} (hmore : state.cursor.rest ≠ [])
      (hscan : mode.scan state = (.includes name right, next))
      (hresolve : Path.resolveInclude name s.workdir s.rootdir = .ok target)
      (hchain : chain.any (·.same target) = false) (hread : tree.readText target = .ok text)
      (hinner : Comes tree i depth (target :: chain) (s.included target text) .text
        ⟨.start text, (next.draft.flushText.touch target).pushWorkdir
          (s.included target text).workdir⟩) :
      Comes tree i (depth + 1) chain s mode state
  /-- The include is behind another, which has been followed to the end of its file. -/
  | behind {depth : Nat} {chain : List Path} {s : Source} {mode : Mode} {state next : Scan.State}
      {name : List Char} {right : Bool} {draft : Draft} (hmore : state.cursor.rest ≠ [])
      (hscan : mode.scan state = (.includes name right, next))
      (hfollow : follow tree depth chain s name state.cursor.position next.draft = (.ok (), draft))
      (hrest : Comes tree i depth chain s mode
        { next with draft := { draft with skipNewline := right } }) :
      Comes tree i depth chain s mode state

/-- A compile comes to an include. -/
def Meets (tree : FileTree) (s : Source) (i : Inclusion) : Prop :=
  Comes tree i (tree.files.length + 1) s.file.toList s .text ⟨.start s.text, s.opening⟩

/-- The files that a compile reads for its static includes. -/
def Reads (tree : FileTree) (s : Source) (p : Path) : Prop := ∃ i, s.Meets tree i ∧ i.Reads p

variable {tree other : FileTree} {i : Inclusion} {depth : Nat} {chain : List Path} {s : Source}
  {mode : Mode} {state : Scan.State}

/-! ## Files are read within the root -/

/-- The sources that scanning comes to are confined, all to one root. -/
lemma Comes.confined (h : Comes tree i depth chain s mode state) (hs : s.Confined) :
    i.source.Confined ∧ i.source.rootdir = s.rootdir := by
  induction h with
  | here => exact ⟨hs, rfl⟩
  | proceed _ _ _ ih | switch _ _ _ ih | behind _ _ _ _ ih => exact ih hs
  | inside _ _ hresolve _ hread _ ih => exact ih (hs.included hresolve hread)

/-- What an include of a confined source names lies within its root. -/
lemma Confined.inside_target (hs : s.Confined) {name : List Char} {p : Path}
    (h : Path.resolveInclude name s.workdir s.rootdir = .ok p) : p.Inside s.rootdir := by
  have hgrounded := hs.grounded_target h
  obtain ⟨_, -, hfound⟩ := bind_eq_ok.1 h
  obtain ⟨_, hwithin, hfound⟩ := bind_eq_ok.1 hfound
  cases hfound
  exact ⟨hgrounded.absolute, Path.ensureWithin_eq_ok.1 hwithin,
    Path.hasParentSegment_eq_false.2 hgrounded.noParent⟩

/-- **What a compile reads for its includes lies within the root**, at any depth. -/
theorem Confined.inside (hs : s.Confined) {p : Path} (h : s.Reads tree p) : p.Inside s.rootdir := by
  obtain ⟨i, hmeets, htarget, -, -⟩ := h
  obtain ⟨hconfined, hroot⟩ := hmeets.confined hs
  exact hroot ▸ hconfined.inside_target htarget

/-! ## Names that are refused -/

/-- An error of the work in a directory is the error of it. -/
lemma withWorkdir_error {d : Draft} {dir : Path} {file : String} {work : Draft → Outcome}
    {e : TemplateError} (h : (work (d.pushWorkdir dir)).1 = .error e) :
    (d.withWorkdir dir file work).1 = .error e := by
  unfold Draft.withWorkdir
  rcases hwork : work (d.pushWorkdir dir) with ⟨result, after⟩
  obtain rfl : result = .error e := by
    rw [hwork] at h
    exact h
  rfl

/-- An include whose name stands for no file is where scanning ends. -/
lemma Comes.refused (h : Comes tree i depth chain s mode state) {e : TemplateError}
    (he : i.target = .error e) (openedAt : Position) :
    (s.scanAll (follow tree depth chain s) mode openedAt state).1 = .error e := by
  induction h generalizing openedAt with
  | here hmore hscan =>
    have htarget : Path.resolveInclude i.name i.source.workdir i.source.rootdir = .error e := he
    rw [scanAll_of_ne_nil _ _ _ _ hmore, hscan]
    simp only [afterStep, follow, htarget]
  | proceed hmore hscan _ ih =>
    rw [scanAll_of_ne_nil _ _ _ _ hmore, hscan]
    exact ih openedAt
  | switch hmore hscan _ ih =>
    rw [scanAll_of_ne_nil _ _ _ _ hmore, hscan]
    exact ih _
  | @inside depth chain s mode state next name text right target hmore hscan hresolve hchain hread _
      ih =>
    have hinner : (scanInto tree depth (target :: chain) (s.included target text)
        ((next.draft.flushText.touch target).pushWorkdir (s.included target text).workdir)).1 =
          .error e := by
      rw [scanInto_eq]
      exact ih .start
    have herror : (follow tree (depth + 1) chain s name state.cursor.position next.draft).1 =
        .error e := by
      rw [follow_entered hresolve hchain hread rfl]
      exact withWorkdir_error hinner
    rw [scanAll_of_ne_nil _ _ _ _ hmore, hscan]
    rcases hresult : follow tree (depth + 1) chain s name state.cursor.position next.draft with
      ⟨result, draft⟩
    rw [hresult] at herror
    obtain rfl : result = .error e := herror
    simp only [afterStep, hresult]
  | behind hmore hscan hfollow _ ih =>
    rw [scanAll_of_ne_nil _ _ _ _ hmore, hscan]
    simp only [afterStep, hfollow]
    exact ih openedAt

/-- **A name that stands for no file is the error of the compile**, wherever it is met. -/
theorem compile_refused (hmeets : s.Meets tree i) {e : TemplateError} (he : i.target = .error e)
    (accepts : String → Program → Except TemplateError Unit) :
    s.compile accepts tree = .error e := by
  have hscan := Comes.refused hmeets he .start
  rw [← scanInto_eq] at hscan
  have hdraft : (s.draft tree).1 = .error e := by
    rw [draft_eq]
    exact withWorkdir_error hscan
  unfold compile
  rcases hresult : s.draft tree with ⟨result, draft⟩
  rw [hresult] at hdraft
  obtain rfl : result = .error e := hdraft
  rfl

/-! ## Nothing else matters -/

/-- Scanning from a state reads a file. -/
def ReadsFrom (tree : FileTree) (depth : Nat) (chain : List Path) (s : Source) (mode : Mode)
    (state : Scan.State) (p : Path) : Prop :=
  ∃ i, Comes tree i depth chain s mode state ∧ i.Reads p

/-- The file of an include that scanning has stopped at is read. -/
lemma readsFrom_here (tree : FileTree) {next : Scan.State} {name : List Char} {right : Bool}
    {target : Path}
    (hmore : state.cursor.rest ≠ []) (hscan : mode.scan state = (.includes name right, next))
    (hresolve : Path.resolveInclude name s.workdir s.rootdir = .ok target)
    (hchain : chain.any (·.same target) = false) (hdepth : 0 < depth) :
    ReadsFrom tree depth chain s mode state target :=
  ⟨⟨depth, chain, s, name⟩, .here hmore hscan, hresolve, hchain, hdepth⟩

/-- Where what is read reads the same, scanning comes to the same. -/
lemma Scanned.alike {n : Nat} {openedAt : Position} {outcome : Outcome}
    (h : Scanned tree n chain s mode openedAt state outcome) (hdepth : n < depth)
    (hsame : ∀ p, ReadsFrom tree depth chain s mode state p →
      other.readText p = tree.readText p) :
    Scanned other n chain s mode openedAt state outcome := by
  induction h generalizing depth with
  | done hend => exact .done hend
  | proceed hmore hscan _ ih =>
    refine .proceed hmore hscan (ih hdepth fun p ⟨i, hi, hp⟩ => hsame p ⟨i, ?_, hp⟩)
    exact .proceed hmore hscan hi
  | switch hmore hscan _ ih =>
    refine .switch hmore hscan (ih hdepth fun p ⟨i, hi, hp⟩ => hsame p ⟨i, ?_, hp⟩)
    exact .switch hmore hscan hi
  | unrecognized hmore hscan => exact .unrecognized hmore hscan
  | refused hmore hscan hresolve => exact .refused hmore hscan hresolve
  | circular hmore hscan hresolve hchain => exact .circular hmore hscan hresolve hchain
  | unreadable hmore hscan hresolve hchain hread =>
    have hreads := readsFrom_here tree hmore hscan hresolve hchain (Nat.zero_lt_of_lt hdepth)
    exact .unreadable hmore hscan hresolve hchain ((hsame _ hreads).trans hread)
  | failed hmore hscan hresolve hchain hread _ hleave ih =>
    obtain ⟨depth, rfl⟩ := Nat.exists_eq_succ_of_ne_zero (Nat.ne_zero_of_lt hdepth)
    have hreads := readsFrom_here tree hmore hscan hresolve hchain (Nat.succ_pos depth)
    refine .failed hmore hscan hresolve hchain ((hsame _ hreads).trans hread)
      (ih (Nat.lt_of_succ_lt_succ hdepth) fun p ⟨i, hi, hp⟩ => hsame p ⟨i, ?_, hp⟩) hleave
    exact .inside hmore hscan hresolve hchain hread hi
  | entered hmore hscan hresolve hchain hread hinner hleave _ ihinner ih =>
    obtain ⟨depth, rfl⟩ : ∃ more, depth = more + 2 := ⟨depth - 2, by omega⟩
    have hreads := readsFrom_here tree hmore hscan hresolve hchain (Nat.succ_pos (depth + 1))
    -- the program goes on behind the include, and comes to what is there
    have hless := Nat.lt_of_succ_lt_succ hdepth
    have hscanned := (scanInto_eq _ _ _ _ _).trans (hinner.eq_scanAll (Nat.le_of_lt_succ hless))
    refine .entered hmore hscan hresolve hchain ((hsame _ hreads).trans hread)
      (ihinner hless fun p ⟨i, hi, hp⟩ => hsame p ⟨i, ?_, hp⟩) hleave
      (ih hdepth fun p ⟨i, hi, hp⟩ => hsame p ⟨i, ?_, hp⟩)
    · exact .inside hmore hscan hresolve hchain hread hi
    · have hfollow := follow_entered hresolve hchain hread hscanned
      exact .behind hmore hscan ((hfollow _).trans hleave) hi

/-- A derivation for a source says what its draft is. -/
lemma draft_of_scanned (hs : s.Confined) {n : Nat} {outcome : Outcome}
    (h : Scanned tree n s.file.toList s .text .start ⟨.start s.text, s.opening⟩ outcome) :
    s.draft tree = s.start.withWorkdir s.workdir s.name fun _ => outcome := by
  obtain ⟨computed, hcomputed⟩ := scanned_total hs (room_start s.file.toList) .text .start
    ⟨.start s.text, s.opening⟩
  -- with a count that exceeds the nesting of both derivations, they come to the same
  have hunique : computed = outcome := by
    rw [← hcomputed.eq_scanAll (Nat.le_add_left tree.files.length n),
      ← h.eq_scanAll (Nat.le_add_right n tree.files.length)]
  rw [draft_eq]
  refine withWorkdir_congr ?_
  rw [scanInto_eq, ← hunique]
  exact hcomputed.eq_scanAll le_rfl

/-- **A compile depends on what it reads**, and on nothing else: in a tree in which these files read
the same, or cannot be read for the same reason, it has the same outcome. -/
theorem compile_of_reads (hs : s.Confined)
    (hsame : ∀ p, s.Reads tree p → other.readText p = tree.readText p)
    (accepts : String → Program → Except TemplateError Unit) :
    s.compile accepts other = s.compile accepts tree := by
  obtain ⟨outcome, houtcome⟩ := scanned_total hs (room_start s.file.toList) .text .start
    ⟨.start s.text, s.opening⟩
  have hother := houtcome.alike (Nat.lt_succ_self _) hsame
  unfold compile
  rw [draft_of_scanned hs houtcome, draft_of_scanned hs hother]

/-- The source of a file has the root that is given, by its absolute spelling. -/
lemma ofFile_root {p root : Path} (h : ofFile tree p (some root) = .ok s) :
    root.absolutize tree.cwdPath = .ok s.rootdir := by
  obtain ⟨file, -, h⟩ := bind_eq_ok.1 h
  split at h
  · cases h
  split at h
  · cases h
  exact (ofText_dirs h).2.1

end Source

/-! ## Templates of files -/

namespace Template

/-- The files that making the template of a file reads. -/
inductive Reads (tree : FileTree) (file : Path) (rootdir : Option Path) : Path → Prop
  /-- The file itself, by its absolute spelling. -/
  | own {path dir : Path} (habsolute : file.absolutize tree.cwdPath = .ok path)
      (hdir : path.parent? = some dir) : Reads tree file rootdir path
  | included {s : Source} {path : Path} (hsource : Source.ofFile tree file rootdir = .ok s)
      (hreads : s.Reads tree path) : Reads tree file rootdir path

variable {tree other : FileTree} {file : Path} {s : Source}

/-- What is read has an absolute path without a segment `..`. -/
lemma Reads.grounded (hcwd : tree.cwdPath.hasParentSegment = false) {rootdir : Option Path}
    {p : Path}
    (h : Reads tree file rootdir p) : p.isAbsolute = true ∧ p.hasParentSegment = false := by
  cases h with
  | own habsolute hdir =>
    have hgrounded := Source.grounded_of_absolutize hcwd habsolute
    exact ⟨hgrounded.absolute, Path.hasParentSegment_eq_false.2 hgrounded.noParent⟩
  | included hsource hreads =>
    have hinside := ((Source.Made.file hsource).confined hcwd).inside hreads
    exact ⟨hinside.absolute, hinside.noParent⟩

/-- **Making the template of a file within a root reads files within it**, and none when the root is
refused. -/
theorem Reads.inside (hcwd : tree.cwdPath.hasParentSegment = false) {root p : Path}
    (hempty : root.chars ≠ []) (hwithin : file.startsWith root = true)
    (h : Reads tree file (some root) p) :
    ∃ absolute, root.absolutize tree.cwdPath = .ok absolute ∧ p.Inside absolute := by
  obtain ⟨habs, hparent⟩ := h.grounded hcwd
  cases h with
  | own habsolute hdir =>
    have hcwdPath := Source.isAbsolute_cwdPath tree
    obtain ⟨_, hcheck, -⟩ := Source.bind_eq_ok.1 habsolute
    have hroot := Path.checkSegments_of_startsWith hwithin hcheck
    obtain ⟨rfl, -⟩ := Source.isAbsolute_absolutize hcwdPath habsolute
    exact ⟨_, Path.absolutize_of_checkSegments hroot hempty _,
      habs, Path.startsWith_absoluteFrom hwithin hempty hcwdPath, hparent⟩
  | included hsource hreads =>
    exact ⟨_, Source.ofFile_root hsource, ((Source.Made.file hsource).confined hcwd).inside hreads⟩

/-- A name that stands for no file is the error of making the template. -/
lemma ofFile_refused {evaluator : Evaluator} {identity : Nat} {rootdir : Option Path}
    {i : Inclusion}
    (hsource : Source.ofFile tree file rootdir = .ok s) (hmeets : s.Meets tree i)
    {e : TemplateError} (he : i.target = .error e) :
    ofFile evaluator tree identity file rootdir = .error e :=
  Source.bind_eq_error.2 (.inr ⟨s, hsource, Source.bind_eq_error.2
    (.inl (Source.compile_refused hmeets he evaluator.accepts))⟩)

/-- **Making a template depends on what it reads**, and on the current directory. -/
theorem ofFile_of_reads (hcwd : tree.cwdPath.hasParentSegment = false) {rootdir : Option Path}
    (hsame : other.cwdPath = tree.cwdPath)
    (hreads : ∀ p, Reads tree file rootdir p → other.readText p = tree.readText p)
    (evaluator : Evaluator) (identity : Nat) :
    ofFile evaluator other identity file rootdir = ofFile evaluator tree identity file rootdir := by
  have hsource : Source.ofFile other file rootdir = Source.ofFile tree file rootdir := by
    unfold Source.ofFile
    rw [hsame]
    refine Source.bind_congr_ok fun path habsolute => ?_
    cases hdir : path.parent? with
    | none => rfl
    | some dir =>
      have htext : ∀ text workdir root,
          Source.ofText other text workdir root (some path) =
            Source.ofText tree text workdir root (some path) := by
        intro text workdir root
        unfold Source.ofText
        rw [hsame]
      simp only [hreads path (.own habsolute hdir), htext]
  unfold ofFile
  rw [hsource]
  refine Source.bind_congr_ok fun s hs => ?_
  have hconfined := (Source.Made.file hs).confined hcwd
  rw [ofSource, ofSource,
    Source.compile_of_reads hconfined (fun p hp => hreads p (.included hs hp))]

end Template

end BracketTemplate
