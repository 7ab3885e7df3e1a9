import Mathlib
import BracketTemplate.Evaluation.Check
import BracketTemplate.Proofs.Inclusion.Inline
import BracketTemplate.Proofs.Scanning.Program

/-!
# Static inclusion is a recursive splice

All files of a compile are scanned into one draft.  Nevertheless the program is what a reader
expects: the instructions of the page alone, with those of each included file, alone, in the place
of its include, between an instruction that sets the directory of the file and one that sets the
directory of the including source again.  `Spliced` is that relation.  It looks at one source at a
time, so nothing of an including source can reach an included one, and nothing can come back from
it.

`inline_spliced` is the invariant: a child starts with no text pending and with no line end to drop,
whatever its parent has read, and its parent goes on with no text pending and with its own flag.
`compile_spliced` draws the conclusion for a whole compile, and adds that every instruction with
code is evaluated in the directory of the file it comes from.
-/

namespace BracketTemplate

open Grammar

namespace Instruction

/-- Whether the instruction evaluates code. -/
def evaluates : Instruction → Bool
  | .escaped _ | .raw _ | .statement _ => true
  | _ => false

/-- The current directory that the instruction sets. -/
def workdir? : Instruction → Option Path
  | .workdir dir => some dir
  | _ => none

lemma workdir?_eq_none {i : Instruction} (h : i.directs = false) : i.workdir? = none := by
  cases i <;> simp_all [directs, workdir?]

end Instruction

/-- The current directory that the last instruction of its kind in a program sets. -/
def Program.lastWorkdir (program : Program) : Option Path :=
  (program.filterMap Instruction.workdir?).getLast?

namespace Source

/-- The instructions of a source, each with the source it comes from: the source's own stay, and a
mark is replaced by those of the file that the include names, in the directory of that file. -/
inductive Spliced (tree : FileTree) : Source → Program → List (Source × Instruction) → Prop
  | nil {s : Source} : Spliced tree s [] []
  | own {s : Source} {i : Instruction} {rest : Program} {body : List (Source × Instruction)}
      (hown : i.directs = false) (hrest : Spliced tree s rest body) :
      Spliced tree s (i :: rest) ((s, i) :: body)
  | inclusion {s : Source} {name text : List Char} {target : Path} {program rest : Program}
      {inner body : List (Source × Instruction)}
      (hresolve : Path.resolveInclude name s.workdir s.rootdir = .ok target)
      (hread : tree.readText target = .ok text)
      (halone : (s.included target text).alone = .ok program)
      (hinner : Spliced tree (s.included target text) program inner)
      (hrest : Spliced tree s rest body) :
      Spliced tree s (mark name :: rest)
        ((s, .workdir (s.included target text).workdir) :: inner ++
          (s, .workdir s.workdir) :: body)

/-- What the splice of a source is made of, it is made of in one way only. -/
theorem Spliced.unique {tree : FileTree} {s : Source} {program : Program}
    {body other : List (Source × Instruction)} (h : Spliced tree s program body)
    (k : Spliced tree s program other) : other = body := by
  induction h generalizing other with
  | nil =>
    cases k
    rfl
  | own hown _ ih =>
    cases k with
    | own _ hrest => rw [ih hrest]
    | inclusion => cases hown
  | @inclusion s name text target program rest inner body hresolve hread halone _ _ ihinner ih =>
    generalize hmark : mark name :: rest = marked at k
    cases k with
    | nil => cases hmark
    | own hown =>
      cases hmark
      cases hown
    | @inclusion _ name' text' target' program' rest' inner' body' hresolve' hread' halone' hinner'
        hrest' =>
      obtain ⟨hname, rfl⟩ := List.cons.inj hmark
      obtain rfl := mark_injective hname
      obtain rfl : target = target' := by
        rw [hresolve] at hresolve'
        cases hresolve'
        rfl
      obtain rfl : text = text' := by
        rw [hread] at hread'
        cases hread'
        rfl
      obtain rfl : program = program' := by
        rw [halone] at halone'
        cases halone'
        rfl
      rw [ihinner hinner', ih hrest']

/-! ## The directory of each instruction -/

/-- Every instruction with code stands behind the directory of its source, when `dir` is the
directory set before the first one. -/
def InPlace : Option Path → List (Source × Instruction) → Prop
  | _, [] => True
  | dir, (s, i) :: rest =>
    (i.evaluates = true → dir = some s.workdir) ∧ InPlace (i.workdir?.or dir) rest

/-- The directory behind some instructions, when `dir` is the one before them. -/
def dirBehind (dir : Option Path) (body : List (Source × Instruction)) : Option Path :=
  (Program.lastWorkdir (body.map (·.2))).or dir

lemma dirBehind_cons (dir : Option Path) (s : Source) (i : Instruction)
    (body : List (Source × Instruction)) :
    dirBehind dir ((s, i) :: body) = dirBehind (i.workdir?.or dir) body := by
  unfold dirBehind Program.lastWorkdir
  cases hi : i.workdir? with
  | none => simp [hi]
  | some own =>
    simp only [List.map_cons, List.filterMap_cons, hi, Option.some_or, List.getLast?_cons]
    cases (List.filterMap Instruction.workdir? (body.map (·.2))).getLast? <;> rfl

lemma dirBehind_append (dir : Option Path) (body more : List (Source × Instruction)) :
    dirBehind dir (body ++ more) = dirBehind (dirBehind dir body) more := by
  induction body generalizing dir with
  | nil => simp [dirBehind, Program.lastWorkdir]
  | cons entry body ih =>
    obtain ⟨s, i⟩ := entry
    rw [List.cons_append, dirBehind_cons, dirBehind_cons, ih]

lemma inPlace_append (dir : Option Path) (body more : List (Source × Instruction)) :
    InPlace dir (body ++ more) ↔ InPlace dir body ∧ InPlace (dirBehind dir body) more := by
  induction body generalizing dir with
  | nil => simp [InPlace, dirBehind, Program.lastWorkdir]
  | cons entry body ih =>
    obtain ⟨s, i⟩ := entry
    simp only [List.cons_append, InPlace, ih, dirBehind_cons, and_assoc]

/-- A splice that starts in the directory of its source ends there, and keeps every instruction with
code in the directory of its own source. -/
theorem Spliced.inPlace {tree : FileTree} {s : Source} {program : Program}
    {body : List (Source × Instruction)} (h : Spliced tree s program body) :
    InPlace (some s.workdir) body ∧ dirBehind (some s.workdir) body = some s.workdir := by
  induction h with
  | nil => exact ⟨trivial, rfl⟩
  | own hown _ ih =>
    rw [InPlace, dirBehind_cons, Instruction.workdir?_eq_none hown]
    exact ⟨⟨fun _ => rfl, ih.1⟩, ih.2⟩
  | inclusion _ _ _ _ _ ihinner ih =>
    rw [List.cons_append, InPlace, dirBehind_cons, inPlace_append, dirBehind_append]
    simp only [Instruction.workdir?, Instruction.evaluates, Bool.false_eq_true, false_implies,
      true_and, Option.some_or, InPlace, dirBehind_cons]
    exact ⟨⟨ihinner.1, ih.1⟩, ih.2⟩

/-! ## A compile is a splice -/

variable {s : Source}

/-- A piece of a program that may replace the mark of an include: what sets the directory of the
file, the splice of the file, and what sets the directory of the including source again. -/
def Replaces (tree : FileTree) (s : Source) (name : List Char) (piece : Program) : Prop :=
  ∃ target text program inner,
    Path.resolveInclude name s.workdir s.rootdir = .ok target ∧ tree.readText target = .ok text ∧
    (s.included target text).alone = .ok program ∧
    Spliced tree (s.included target text) program inner ∧
    piece = .workdir (s.included target text).workdir :: inner.map (·.2) ++ [.workdir s.workdir]

/-- What has been filled with such pieces is a splice. -/
lemma spliced_of_filled {tree : FileTree} {program body : Program}
    (h : Filled (Replaces tree s) program body) :
    ∃ spliced, Spliced tree s program spliced ∧ body = spliced.map (·.2) := by
  induction h with
  | nil => exact ⟨[], .nil, rfl⟩
  | own hown _ ih =>
    obtain ⟨spliced, hspliced, rfl⟩ := ih
    exact ⟨_, .own hown hspliced, rfl⟩
  | filled hpiece _ ih =>
    obtain ⟨spliced, hspliced, rfl⟩ := ih
    obtain ⟨target, text, program, inner, hresolve, hread, halone, hinner, rfl⟩ := hpiece
    exact ⟨_, .inclusion hresolve hread halone hinner hspliced, by simp⟩

/-- Performing a source writes its splice, when following an include writes a piece that may replace
its mark. -/
lemma perform_spliced {tree : FileTree}
    {follow : List Char → Position → Draft → Except TemplateError Draft} {d d' : Draft}
    (hf : Fills d.directories follow (Replaces tree s)) (hpending : d.pending = [])
    (hcalm : d.skipNewline = false)
    (h : s.perform follow .start (.start s.text) d (read s.text) = .ok d') :
    ∃ program body, s.alone = .ok program ∧ Spliced tree s program body ∧
      d'.program = d.program ++ body.map (·.2) := by
  obtain ⟨body, hfilled, hprogram⟩ := s.perform_filled hf (isChain_segments s.text) rfl
    (fun _ _ _ => hpending) h
  obtain ⟨spliced, hspliced, rfl⟩ := spliced_of_filled hfilled
  refine ⟨_, spliced, s.alone_eq_ok.2 ⟨s.perform_unclosed h, rfl⟩, ?_, hprogram⟩
  rwa [hpending, hcalm, carried_nil] at hspliced

/-- A source that is inlined with no text pending, no line end to drop and its own directory entered
last writes its splice. -/
theorem inline_spliced {tree : FileTree} {depth : Nat} {chain : List Path} {d d' : Draft}
    (hpending : d.pending = []) (hcalm : d.skipNewline = false)
    (hdirectory : d.directories.head? = some s.workdir)
    (h : inline tree depth chain s d = .ok d') :
    ∃ program body, s.alone = .ok program ∧ Spliced tree s program body ∧
      d'.program = d.program ++ body.map (·.2) := by
  induction depth generalizing chain s d d' with
  | zero =>
    refine perform_spliced (fun name here e e' _ _ he => ?_) hpending hcalm h
    unfold refuse at he
    split at he <;> cases he
  | succ depth ih =>
    refine perform_spliced (fun name here e e' he hdirectories hentered => ?_) hpending hcalm h
    obtain ⟨target, text, after, hresolve, -, hread, hinner, rfl⟩ := s.enter_eq_ok.1 hentered
    -- the child finds no text, no line end to drop, and its own directory
    obtain ⟨program, inner, halone, hspliced, hprogram⟩ :=
      ih (by simp [Draft.pushWorkdir]) (by simpa [Draft.pushWorkdir] using he) rfl hinner
    have hwritten : after.pending = [] := (s.included target text).inline_pending hinner
    refine ⟨hwritten, hdirectories, _,
      ⟨target, text, program, inner, hresolve, hread, halone, hspliced, rfl⟩, ?_⟩
    simp [Draft.leave, hprogram, hdirectories, hdirectory, Draft.pushWorkdir]

/-- **Static inclusion is a recursive splice.**  The program of a source is the prologue with its
two directories and then its splice, of which there is only one.  Each instruction with code stands
behind the directory of the source it comes from. -/
theorem compile_spliced {accepts : String → Program → Except TemplateError Unit} {tree : FileTree}
    {c : Compiled} (h : s.compile accepts tree = .ok c) :
    ∃ program body, s.alone = .ok program ∧ program = instructions false (segments s.text) ∧
      (∀ other, Spliced tree s program other ↔ other = body) ∧
      c.program = .rootdir s.rootdir :: .workdir s.workdir :: body.map (·.2) ∧
      ∀ before t i behind, body = before ++ (t, i) :: behind → i.evaluates = true →
        Program.lastWorkdir (.workdir s.workdir :: before.map (·.2)) = some t.workdir := by
  obtain ⟨d, hinline, -, rfl⟩ := s.compile_eq_ok.1 h
  obtain ⟨program, body, halone, hspliced, hprogram⟩ :=
    inline_spliced (by rw [opening_eq]; rfl) (by rw [opening_eq]; rfl) (by rw [opening_eq]; rfl)
      hinline
  refine ⟨program, body, halone, (s.alone_eq_ok.1 halone).2, fun other => ⟨hspliced.unique, ?_⟩,
    by simp [hprogram, opening_eq], fun before t i behind hbody hcode => ?_⟩
  · rintro rfl
    exact hspliced
  · have hplace := hspliced.inPlace.1
    rw [hbody, inPlace_append, InPlace] at hplace
    have hdir := dirBehind_cons none s (.workdir s.workdir) before
    unfold dirBehind at hdir
    rw [← hplace.2.1 hcode, dirBehind]
    simpa [Instruction.workdir?] using hdir

/-- A file with a region that trims, and a text that includes it. -/
def headTree : FileTree where
  entries := [([['d']], .directory), ([['d'], ['h']], .file (Utf8.encode "x[=1-]".toList) 0)]
  cwd := []

def headPage : Source := ⟨"a [-<d/h-]\n[!y]".toList, ⟨['/']⟩, ⟨['/']⟩, none⟩

theorem compile_spliced_head :
    headPage.compile Program.acceptAll headTree =
        .ok ⟨"(source)", [.rootdir ⟨['/']⟩, .workdir ⟨['/']⟩, .emit "a", .workdir ⟨"/d".toList⟩,
          .emit "x", .escaped "1", .workdir ⟨['/']⟩, .raw "y"], [⟨"/d/h".toList⟩]⟩ ∧
      ∃ program body, headPage.alone = .ok program ∧
        (∀ other, Spliced headTree headPage program other ↔ other = body) ∧
        body.map (·.2) = [.emit "a", .workdir ⟨"/d".toList⟩, .emit "x", .escaped "1",
          .workdir ⟨['/']⟩, .raw "y"] := by
  have hcompile : headPage.compile Program.acceptAll headTree =
      .ok ⟨"(source)", [.rootdir ⟨['/']⟩, .workdir ⟨['/']⟩, .emit "a", .workdir ⟨"/d".toList⟩,
        .emit "x", .escaped "1", .workdir ⟨['/']⟩, .raw "y"], [⟨"/d/h".toList⟩]⟩ := by
    decide +kernel
  obtain ⟨program, body, halone, -, hspliced, hprogram, -⟩ := compile_spliced hcompile
  refine ⟨hcompile, program, body, halone, hspliced, ?_⟩
  have hbody := (List.cons.inj (List.cons.inj hprogram).2).2
  exact hbody.symm

end Source

end BracketTemplate
