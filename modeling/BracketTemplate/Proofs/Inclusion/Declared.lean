import Mathlib
import BracketTemplate.Proofs.Inclusion.FromFile
import BracketTemplate.Proofs.Inclusion.Splice
import BracketTemplate.Proofs.Path.Absolute

/-!
# What a template declares

The template of a file lists that file as the first of its paths, by its absolute spelling
(`Template.ofFile_head`).  Its program sets one root, and that is an absolute path
(`Template.ofFile_rootdir`).  Both hold whatever the directories are that the template is made in.
-/

namespace BracketTemplate

/-- Noting more paths leaves the first one. -/
lemma Path.head?_note {paths kept : List Path} (h : kept ≠ []) :
    (paths.foldl note kept).head? = kept.head? := by
  induction paths generalizing kept with
  | nil => rfl
  | cons path paths ih =>
    have hhead : (note kept path).head? = kept.head? := by
      unfold note
      split
      · rfl
      · rw [List.head?_append_of_ne_nil _ h]
    have hne : note kept path ≠ [] := by
      unfold note
      split
      · exact h
      · simp
    rw [List.foldl_cons, ih hne, hhead]

namespace Source

variable {tree : FileTree} {s : Source} {accepts : String → Program → Except TemplateError Unit}
  {c : Compiled} {p : Path} {rootdir : Option Path}

/-- The first path of a compile is the file of the source. -/
lemma compile_head (h : s.compile accepts tree = .ok c) {file : Path} (hfile : s.file = some file) :
    c.paths.head? = some file := by
  obtain ⟨included, -, hpaths⟩ := compile_touched h
  have hstart : s.file.toList.foldl Path.note [] = [file] := by
    rw [hfile]
    rfl
  rw [hpaths, List.foldl_append, hstart, Path.head?_note (by simp)]
  rfl

/-- Splices set directories and no root. -/
lemma Spliced.not_rootdir {program : Program} {body : List (Source × Instruction)}
    (h : Spliced tree s program body) (dir : Path) : .rootdir dir ∉ body.map (·.2) := by
  induction h with
  | nil => simp
  | own hown _ ih =>
    rw [List.map_cons, List.mem_cons, not_or]
    refine ⟨?_, ih⟩
    rintro rfl
    cases hown
  | inclusion _ _ _ _ _ ihinner ihbody =>
    simp only [List.cons_append, List.map_cons, List.map_append, List.mem_cons, List.mem_append,
      reduceCtorEq, false_or, not_or]
    exact ⟨ihinner, ihbody⟩

/-- **A program sets the root of its source**, and no other. -/
theorem compile_rootdir (h : s.compile accepts tree = .ok c) {dir : Path} :
    .rootdir dir ∈ c.program ↔ dir = s.rootdir := by
  obtain ⟨program, body, -, -, hspliced, hprogram, -⟩ := compile_spliced h
  have hbody := ((hspliced body).2 rfl).not_rootdir dir
  rw [hprogram, List.mem_cons, List.mem_cons]
  constructor
  · rintro (hroot | hwork | hmem)
    · cases hroot
      rfl
    · cases hwork
    · exact absurd hmem hbody
  · rintro rfl
    exact .inl rfl

lemma isAbsolute_absolutize {cwd q : Path} (hcwd : cwd.isAbsolute = true)
    (h : p.absolutize cwd = .ok q) : q = p.absoluteFrom cwd ∧ q.isAbsolute = true := by
  obtain ⟨_, -, h⟩ := bind_eq_ok.1 h
  split at h
  · cases h
  · cases h
    exact ⟨rfl, Path.isAbsolute_absoluteFrom p hcwd⟩

/-- The source of a file has the file under its absolute spelling, and an absolute root. -/
lemma ofFile_absolute (h : ofFile tree p rootdir = .ok s) :
    s.file = some (p.absoluteFrom tree.cwdPath) ∧ s.rootdir.isAbsolute = true := by
  obtain ⟨file, habsolute, h⟩ := bind_eq_ok.1 h
  obtain ⟨rfl, hfile⟩ := isAbsolute_absolutize (isAbsolute_cwdPath tree) habsolute
  split at h
  · cases h
  split at h
  · cases h
  next text hread =>
  refine ⟨(ofText_file_fields hfile h).2, ?_⟩
  obtain ⟨-, hroot, -⟩ := ofText_dirs h
  exact (isAbsolute_absolutize (isAbsolute_cwdPath tree) hroot).2

end Source

namespace Template

variable {tree : FileTree} {evaluator : Evaluator} {identity : Nat} {p : Path}
  {rootdir : Option Path} {t : Template}

/-- **The first path of a template is its file**, by the absolute spelling. -/
theorem ofFile_head (h : ofFile evaluator tree identity p rootdir = .ok t) :
    t.paths.head? = some (p.absoluteFrom tree.cwdPath) := by
  obtain ⟨s, c, hsource, hcompile, rfl⟩ := ofFile_eq_ok.1 h
  exact Source.compile_head hcompile (Source.ofFile_absolute hsource).1

/-- **The root that a template sets is absolute.** -/
theorem ofFile_rootdir (h : ofFile evaluator tree identity p rootdir = .ok t) {dir : Path}
    (hdir : .rootdir dir ∈ t.program) : dir.isAbsolute = true := by
  obtain ⟨s, c, hsource, hcompile, rfl⟩ := ofFile_eq_ok.1 h
  rw [(Source.compile_rootdir hcompile).1 hdir]
  exact (Source.ofFile_absolute hsource).2

end Template

end BracketTemplate
