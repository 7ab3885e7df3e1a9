import Mathlib
import BracketTemplate.Evaluation.Template
import BracketTemplate.Proofs.Inclusion.Dependencies

/-!
# Templates from files

The source in a file is made from the path of the file, the current directory and the text, and from
nothing else.  All paths of its compile are files that can be read (`Source.ofFile_paths`), and a
tree in which they are the same makes the same template of the file (`Template.ofFile_agree`).

Where no template can be made, one kind of error says that there is no file.  It is raised for the
file itself and for no other, since an include that cannot be followed is a compile error
(`Template.ofFile_isMissing`).
-/

namespace BracketTemplate

open Grammar

/-! ## Errors that say that a file is missing -/

/-- Whether an error says that there is no file. -/
def TemplateError.isMissing : TemplateError → Bool
  | .io _ fault => fault.isMissing
  | _ => false

namespace Path

lemma isMissing_checkSegments {p : Path} {e : TemplateError} (h : p.checkSegments = .error e) :
    e.isMissing = false := by
  obtain ⟨_, rfl⟩ := security_checkSegments h
  rfl

lemma isMissing_ensureWithin {p root : Path} {e : TemplateError}
    (h : p.ensureWithin root = .error e) : e.isMissing = false := by
  obtain ⟨_, rfl⟩ := security_ensureWithin h
  rfl

/-- Making a path absolute looks at no files. -/
lemma isMissing_absolutize {p cwd : Path} {e : TemplateError} (h : p.absolutize cwd = .error e) :
    e.isMissing = false := by
  rcases Source.bind_eq_error.1 h with hcheck | ⟨_, -, h⟩
  · exact isMissing_checkSegments hcheck
  · split at h <;> cases h
    rfl

lemma isMissing_resolveInclude {name : List Char} {workdir rootdir : Path} {e : TemplateError}
    (h : resolveInclude name workdir rootdir = .error e) : e.isMissing = false := by
  obtain ⟨_, _, rfl⟩ := security_resolveInclude h
  rfl

end Path

namespace Source

variable {tree other : FileTree} {s : Source} {e : TemplateError}

/-! ## Making a source -/

/-- The steps by which a source is made of a text and the path of its file. -/
lemma ofText_file {text : List Char} {dir root file : Path} (hfile : file.isAbsolute = true) :
    ofText tree text (some dir) (some root) (some file) =
      (dir.absolutize tree.cwdPath >>= fun workdir =>
        root.absolutize tree.cwdPath >>= fun rootdir =>
        workdir.ensureWithin rootdir >>= fun _ => file.checkSegments >>= fun _ =>
        file.ensureWithin workdir >>= fun _ => pure ⟨text, workdir, rootdir, some file⟩) := by
  unfold ofText
  simp only [hfile, if_true]

lemma ofText_file_fields {text : List Char} {dir root file : Path} (hfile : file.isAbsolute = true)
    (h : ofText tree text (some dir) (some root) (some file) = .ok s) :
    s.text = text ∧ s.file = some file := by
  rw [ofText_file hfile] at h
  obtain ⟨_, -, h⟩ := bind_eq_ok.1 h
  obtain ⟨_, -, h⟩ := bind_eq_ok.1 h
  obtain ⟨_, -, h⟩ := bind_eq_ok.1 h
  obtain ⟨_, -, h⟩ := bind_eq_ok.1 h
  obtain ⟨_, -, h⟩ := bind_eq_ok.1 h
  cases h
  exact ⟨rfl, rfl⟩

/-- Making a source of a text looks at no files. -/
lemma isMissing_ofText {text : List Char} {dir root file : Path} (hfile : file.isAbsolute = true)
    (h : ofText tree text (some dir) (some root) (some file) = .error e) : e.isMissing = false := by
  rw [ofText_file hfile] at h
  rcases bind_eq_error.1 h with hdir | ⟨_, -, h⟩
  · exact Path.isMissing_absolutize hdir
  rcases bind_eq_error.1 h with hroot | ⟨_, -, h⟩
  · exact Path.isMissing_absolutize hroot
  rcases bind_eq_error.1 h with hwithin | ⟨_, -, h⟩
  · exact Path.isMissing_ensureWithin hwithin
  rcases bind_eq_error.1 h with hcheck | ⟨_, -, h⟩
  · exact Path.isMissing_checkSegments hcheck
  rcases bind_eq_error.1 h with hwithin | ⟨_, -, h⟩
  · exact Path.isMissing_ensureWithin hwithin
  · cases h

variable {p : Path} {rootdir : Option Path}

lemma grounded_of_absolutize (hcwd : tree.cwdPath.hasParentSegment = false) {file : Path}
    (h : p.absolutize tree.cwdPath = .ok file) : file.Grounded :=
  grounded_absolutize ⟨isAbsolute_cwdPath tree, Path.hasParentSegment_eq_false.1 hcwd⟩ h

/-- The source in a file has the text of the file, under its absolute path. -/
lemma ofFile_fields (hcwd : tree.cwdPath.hasParentSegment = false)
    (h : ofFile tree p rootdir = .ok s) :
    ∃ file, p.absolutize tree.cwdPath = .ok file ∧ file.Grounded ∧ s.file = some file ∧
      tree.readText file = .ok s.text := by
  obtain ⟨file, habsolute, h⟩ := bind_eq_ok.1 h
  have hgrounded := grounded_of_absolutize hcwd habsolute
  split at h
  · cases h
  split at h
  · cases h
  next text hread =>
  obtain ⟨rfl, hfile⟩ := ofText_file_fields hgrounded.absolute h
  exact ⟨file, habsolute, hgrounded, hfile, hread⟩

/-- Two trees in which a file reads the same make the same source of it. -/
lemma ofFile_congr (hcwd : other.cwdPath = tree.cwdPath)
    (hread : ∀ file, p.absolutize tree.cwdPath = .ok file →
      other.readText file = tree.readText file) :
    ofFile other p rootdir = ofFile tree p rootdir := by
  have hsame : ∀ text dir root file,
      ofText other text dir root file = ofText tree text dir root file := by
    intro text dir root file
    unfold ofText
    rw [hcwd]
  unfold ofFile
  rw [hcwd]
  refine bind_congr_ok fun file habsolute => ?_
  simp only [hread file habsolute, hsame]

/-- When making the source of a file fails for want of a file, it is that file. -/
lemma ofFile_isMissing (hcwd : tree.cwdPath.hasParentSegment = false)
    (h : ofFile tree p rootdir = .error e) (hmissing : e.isMissing = true) :
    ∃ file fault, p.absolutize tree.cwdPath = .ok file ∧ tree.readText file = .error fault ∧
      fault.isMissing = true := by
  rcases bind_eq_error.1 h with habsolute | ⟨file, habsolute, h⟩
  · rw [Path.isMissing_absolutize habsolute] at hmissing
    cases hmissing
  have hgrounded := grounded_of_absolutize hcwd habsolute
  split at h
  · cases h
    cases hmissing
  split at h
  next fault hread =>
    cases h
    exact ⟨file, fault, habsolute, hread, hmissing⟩
  next text hread =>
    rw [isMissing_ofText hgrounded.absolute h] at hmissing
    cases hmissing

/-! ## Compiling it -/

/-- Performing segments fails for want of a file only where following an include does. -/
lemma isMissing_perform {follow : List Char → Position → Draft → Except TemplateError Draft}
    (hf : ∀ name here d e, follow name here d = .error e → e.isMissing = false)
    {lexemes : List Lexeme} {here : Position} {c : Cursor} {d : Draft}
    (h : s.perform follow here c d lexemes = .error e) : e.isMissing = false := by
  induction lexemes generalizing here c d with
  | nil => cases h
  | cons lexeme rest ih =>
    obtain ⟨segment, n⟩ := lexeme
    cases segment <;> simp only [perform] at h
    case literal text => exact ih h
    case region kind left code right => exact ih h
    case inclusion left name right =>
      split at h
      next e' hfollow =>
        cases h
        exact hf _ _ _ _ hfollow
      · exact ih h
    case unclosed =>
      cases h
      rfl

/-- An include that cannot be followed is a compile error, and a file is never missing. -/
lemma isMissing_inline {depth : Nat} {chain : List Path} {d : Draft}
    (h : inline tree depth chain s d = .error e) : e.isMissing = false := by
  induction depth generalizing chain s d e with
  | zero =>
    refine isMissing_perform (fun name here d e he => ?_) h
    unfold refuse at he
    split at he
    next hresolve =>
      cases he
      exact Path.isMissing_resolveInclude hresolve
    · cases he
      rfl
  | succ depth ih =>
    refine isMissing_perform (fun name here d e he => ?_) h
    unfold enter at he
    split at he
    next hresolve =>
      cases he
      exact Path.isMissing_resolveInclude hresolve
    split at he
    · cases he
      rfl
    split at he
    · cases he
      rfl
    next text hread =>
      rcases hinner : inline tree depth _ _ _ with e' | after
      · rw [hinner] at he
        cases he
        exact ih hinner
      · rw [hinner] at he
        cases he

end Source

/-- The test of an evaluator looks at no files. -/
lemma Evaluator.isMissing_accepts {evaluator : Evaluator} {name : String} {program : Program}
    {e : TemplateError} (h : evaluator.accepts name program = .error e) : e.isMissing = false := by
  cases evaluator with
  | script =>
    simp only [accepts, Program.check] at h
    split at h <;> cases h
    rfl
  | idle => cases h

namespace Source

variable {tree other : FileTree} {s : Source} {e : TemplateError} {evaluator : Evaluator}
  {c : Compiled}

/-- A source that does not compile never says that a file is missing. -/
theorem isMissing_compile (h : s.compile evaluator.accepts tree = .error e) :
    e.isMissing = false := by
  rw [compile_eq] at h
  split at h
  next hinline =>
    cases h
    exact isMissing_inline hinline
  next d hinline =>
    rcases haccepts : evaluator.accepts s.name d.program with e' | _
    · rw [haccepts] at h
      cases h
      exact evaluator.isMissing_accepts haccepts
    · rw [haccepts] at h
      cases h

/-- **The paths of a file that compiles** are grounded, and can be read. -/
theorem ofFile_paths (hcwd : tree.cwdPath.hasParentSegment = false) {p : Path}
    {rootdir : Option Path} (hsource : ofFile tree p rootdir = .ok s)
    {accepts : String → Program → Except TemplateError Unit} (h : s.compile accepts tree = .ok c) :
    ∀ q ∈ c.paths, q.Grounded ∧ ∃ text, tree.readText q = .ok text := by
  intro q hq
  by_cases hown : q ∈ s.file
  · obtain ⟨file, -, hgrounded, hfile, hread⟩ := ofFile_fields hcwd hsource
    obtain rfl : q = file := Option.some.inj (hown.symm.trans hfile)
    exact ⟨hgrounded, _, hread⟩
  · obtain ⟨t, ht, hfile⟩ := reached_of_mem_paths h hq hown
    obtain ⟨-, target, htarget, hgrounded, hread⟩ := ((Made.file hsource).confined hcwd).reached ht
    obtain rfl : q = target := Option.some.inj (hfile.symm.trans htarget)
    exact ⟨hgrounded, _, hread⟩

/-- A file that can be read is made a source with its own directory, and one that cannot is
reported. -/
lemma ofFile_of_read {file path dir : Path} (hpath : file.absolutize tree.cwdPath = .ok path)
    (hdir : path.parent? = some dir) (rootdir : Option Path) :
    (∀ fault, tree.readText path = .error fault →
      ofFile tree file rootdir = .error (.io path fault)) ∧
    ∀ text, tree.readText path = .ok text →
      ofFile tree file rootdir =
        ofText tree text (some dir) (some (rootdir.getD dir)) (some path) := by
  unfold ofFile
  constructor <;> intro _ hread <;> simp only [hpath, hdir, hread, bind, Except.bind]

end Source

/-! ## The template -/

namespace Template

variable {tree other : FileTree} {evaluator : Evaluator} {identity : Nat} {p : Path}
  {rootdir : Option Path} {t : Template} {e : TemplateError}

lemma ofFile_eq_ok :
    ofFile evaluator tree identity p rootdir = .ok t ↔
      ∃ s c, Source.ofFile tree p rootdir = .ok s ∧ s.compile evaluator.accepts tree = .ok c ∧
        t = ⟨identity, c, evaluator⟩ := by
  unfold ofFile
  rw [Source.bind_eq_ok]
  unfold ofSource
  constructor
  · rintro ⟨s, hsource, h⟩
    obtain ⟨c, hcompile, h⟩ := Source.bind_eq_ok.1 h
    cases h
    exact ⟨s, c, hsource, hcompile, rfl⟩
  · rintro ⟨s, c, hsource, hcompile, rfl⟩
    exact ⟨s, hsource, Source.bind_eq_ok.2 ⟨c, hcompile, rfl⟩⟩

/-- The paths of a template that has been made are grounded, and their files can be read. -/
lemma ofFile_paths (hcwd : tree.cwdPath.hasParentSegment = false)
    (h : ofFile evaluator tree identity p rootdir = .ok t) :
    ∀ q ∈ t.paths, q.Grounded ∧ ∃ content, tree.readBytes q = .ok content := by
  obtain ⟨s, c, hsource, hcompile, rfl⟩ := ofFile_eq_ok.1 h
  intro q hq
  obtain ⟨hgrounded, text, hread⟩ := Source.ofFile_paths hcwd hsource hcompile q hq
  obtain ⟨content, hbytes, -⟩ := FileTree.readText_eq_ok.1 hread
  exact ⟨hgrounded, content, hbytes⟩

/-- **A template depends on its paths only.**  A tree with the same current directory in which they
have the same contents makes the same template of the file, under its own identity. -/
theorem ofFile_agree (hcwd : tree.cwdPath.hasParentSegment = false)
    (h : ofFile evaluator tree identity p rootdir = .ok t) (hsame : other.cwdPath = tree.cwdPath)
    (hkeeps : ∀ q ∈ t.paths, Source.Keeps tree other q) (identity' : Nat) :
    ofFile evaluator other identity' p rootdir = .ok { t with identity := identity' } := by
  obtain ⟨s, c, hsource, hcompile, rfl⟩ := ofFile_eq_ok.1 h
  have hconfined := (Source.Made.file hsource).confined hcwd
  refine ofFile_eq_ok.2 ⟨s, c, ?_, Source.compile_agree hconfined hcompile hkeeps, rfl⟩
  rw [Source.ofFile_congr hsame fun file habsolute => ?_, hsource]
  obtain ⟨file', habsolute', -, hfile, hread⟩ := Source.ofFile_fields hcwd hsource
  obtain rfl : file = file' := Except.ok.inj (habsolute.symm.trans habsolute')
  obtain ⟨content, hbytes, -⟩ := FileTree.readText_eq_ok.1 hread
  have hother := hkeeps file (Source.file_mem_paths hcompile hfile) content hbytes
  rw [FileTree.readText, FileTree.readText, hbytes, hother]

/-- **When no template is made for want of a file**, it is the file of the template. -/
theorem ofFile_isMissing (hcwd : tree.cwdPath.hasParentSegment = false)
    (h : ofFile evaluator tree identity p rootdir = .error e) (hmissing : e.isMissing = true) :
    ∃ file fault, p.absolutize tree.cwdPath = .ok file ∧ tree.readText file = .error fault ∧
      fault.isMissing = true := by
  rcases Source.bind_eq_error.1 h with hsource | ⟨s, -, h⟩
  · exact Source.ofFile_isMissing hcwd hsource hmissing
  · rcases Source.bind_eq_error.1 h with hcompile | ⟨_, -, h⟩
    · rw [Source.isMissing_compile hcompile] at hmissing
      cases hmissing
    · cases h

end Template

end BracketTemplate
