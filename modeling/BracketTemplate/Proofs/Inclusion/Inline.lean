import Mathlib
import BracketTemplate.Proofs.Scanning.Reading

/-!
# Compilation without outcomes and steps

`Source.scanInto` threads one draft through all files of a compile and brings it back also from an
error.  Here the same compile is written on segments: `Source.inline` performs what is read in a
source and enters the files that it includes, and an error is only an error.  `settle_scanInto` says
that the two agree, and `compile_eq` that a compile is `inline` from the opening draft, followed by
the test of the evaluator.  What is proved of compilation later is proved of `inline`.
-/

namespace BracketTemplate

open Grammar

namespace Draft

/-- The draft after the directory entered last has been left for those above it. -/
def leave (d : Draft) (above : List Path) : Draft :=
  { d with directories := above, program := d.program ++ above.head?.toList.map .workdir }

/-- Two drafts with the same open brackets and the same directories. -/
structure Level (d d' : Draft) : Prop where
  opened : d'.opened = d.opened
  directories : d'.directories = d.directories

lemma Level.trans {d e f : Draft} (h : Level d e) (k : Level e f) : Level d f :=
  ⟨k.opened.trans h.opened, k.directories.trans h.directories⟩

@[simp] lemma opened_touch (d : Draft) (path : Path) : (d.touch path).opened = d.opened := by
  unfold touch
  split <;> rfl

@[simp] lemma directories_touch (d : Draft) (path : Path) :
    (d.touch path).directories = d.directories := by
  unfold touch
  split <;> rfl

@[simp] lemma pending_touch (d : Draft) (path : Path) : (d.touch path).pending = d.pending := by
  unfold touch
  split <;> rfl

@[simp] lemma skipNewline_touch (d : Draft) (path : Path) :
    (d.touch path).skipNewline = d.skipNewline := by
  unfold touch
  split <;> rfl

@[simp] lemma program_touch (d : Draft) (path : Path) : (d.touch path).program = d.program := by
  unfold touch
  split <;> rfl

end Draft

namespace Source

/-! ## Entering a directory -/

/-- Work in a directory that leaves the directories as it found them is that work, after the
directory has been entered and before it is left. -/
lemma settle_withWorkdir (d : Draft) (dir : Path) (file : String) (work : Draft → Outcome)
    (h : ∀ after, settle (work (d.pushWorkdir dir)) = .ok after →
      after.directories = dir :: d.directories) :
    settle (d.withWorkdir dir file work) =
      (settle (work (d.pushWorkdir dir))).map (·.leave d.directories) := by
  unfold Draft.withWorkdir
  rcases hwork : work (d.pushWorkdir dir) with ⟨e | _, after⟩
  · dsimp only
    rcases Draft.popWorkdir _ file with ⟨_ | _, _⟩ <;> rfl
  · have hdirs : after.directories = dir :: d.directories := h after.calm (by rw [hwork]; rfl)
    have hdrop : (dir :: d.directories).drop
        ((dir :: d.directories).length - (d.directories.length + 1)) = dir :: d.directories := by
      simp
    simp only [hdirs, hdrop, Draft.popWorkdir]
    rcases d.directories with _ | ⟨top, above⟩ <;>
      simp [settle, Except.map, Draft.leave, Draft.emit, Draft.calm]

/-! ## Following an include -/

/-- Enters the file that an include names; `deeper` is what is done in it. -/
def enter (tree : FileTree) (deeper : List Path → Source → Draft → Except TemplateError Draft)
    (chain : List Path) (s : Source) (name : List Char) (here : Position) (d : Draft) :
    Except TemplateError Draft :=
  match Path.resolveInclude name s.workdir s.rootdir with
  | .error e => .error e
  | .ok target =>
    if chain.any (·.same target) then .error (s.errorAt here (.circular target))
    else
      match tree.readText target with
      | .error fault => .error (s.errorAt here (.unreadable target fault))
      | .ok text =>
        (deeper (target :: chain) (s.included target text)
          ((d.flushText.touch target).pushWorkdir (s.included target text).workdir)).map
            (·.leave d.directories)

/-- Refuses every include. -/
def refuse (s : Source) (name : List Char) (here : Position) (_ : Draft) :
    Except TemplateError Draft :=
  match Path.resolveInclude name s.workdir s.rootdir with
  | .error e => .error e
  | .ok target => .error (s.errorAt here (.circular target))

/-- Performs what is read in a source and in the files it includes. -/
def inline (tree : FileTree) : Nat → List Path → Source → Draft → Except TemplateError Draft
  | 0, _, s, d => s.perform s.refuse .start (.start s.text) d (read s.text)
  | depth + 1, chain, s, d =>
    s.perform (enter tree (inline tree depth) chain s) .start (.start s.text) d (read s.text)

/-- What `Source.scanInto` does at a static include. -/
def follow (tree : FileTree) (depth : Nat) (chain : List Path) (s : Source) (name : List Char)
    (here : Position) (draft : Draft) : Outcome :=
  match Path.resolveInclude name s.workdir s.rootdir with
  | .error e => (.error e, draft)
  | .ok target =>
    match depth with
    | 0 => (.error (s.errorAt here (.circular target)), draft)
    | depth + 1 =>
      if chain.any (·.same target) then (.error (s.errorAt here (.circular target)), draft)
      else
        match tree.readText target with
        | .error fault => (.error (s.errorAt here (.unreadable target fault)), draft)
        | .ok text =>
          let child := s.included target text
          (draft.flushText.touch target).withWorkdir child.workdir child.name
            (scanInto tree depth (target :: chain) child)

lemma scanInto_eq (tree : FileTree) (depth : Nat) (chain : List Path) (s : Source) (d : Draft) :
    scanInto tree depth chain s d =
      s.scanAll (follow tree depth chain s) .text .start ⟨.start s.text, d⟩ := by
  rw [scanInto.eq_def]
  refine congrArg (fun f => s.scanLoop f s.text.length .text .start ⟨.start s.text, d⟩) ?_
  funext name here draft
  unfold follow
  cases Path.resolveInclude name s.workdir s.rootdir with
  | error e => rfl
  | ok target => cases depth <;> rfl

/-! ## What is kept -/

variable (s : Source)

/-- Performing segments keeps the level when following includes does. -/
lemma perform_level {follow : List Char → Position → Draft → Except TemplateError Draft}
    (hf : ∀ name here d d', follow name here d = .ok d' → d.Level d') {lexemes : List Lexeme}
    {here : Position} {c : Cursor} {d d' : Draft}
    (h : s.perform follow here c d lexemes = .ok d') : d.Level d' := by
  induction lexemes generalizing here c d with
  | nil =>
    cases h
    exact ⟨by simp, by simp⟩
  | cons lexeme rest ih =>
    obtain ⟨segment, n⟩ := lexeme
    cases segment <;> simp only [perform] at h
    case literal text =>
      refine Draft.Level.trans ?_ (ih h)
      exact ⟨rfl, rfl⟩
    case region kind left code right => exact Draft.Level.trans ⟨by simp, by simp⟩ (ih h)
    case inclusion left name right =>
      split at h
      · cases h
      · next entered hentered =>
        have hlevel := hf _ _ _ _ hentered
        exact Draft.Level.trans ⟨by simpa using hlevel.opened, by simpa using hlevel.directories⟩
          (ih h)
    case unclosed => cases h

/-- What has been performed to the end has no text pending. -/
lemma perform_pending {follow : List Char → Position → Draft → Except TemplateError Draft}
    {lexemes : List Lexeme} {here : Position} {c : Cursor} {d d' : Draft}
    (h : s.perform follow here c d lexemes = .ok d') : d'.pending = [] := by
  induction lexemes generalizing here c d with
  | nil =>
    cases h
    simp [Draft.calm]
  | cons lexeme rest ih =>
    obtain ⟨segment, n⟩ := lexeme
    cases segment <;> simp only [perform] at h
    case literal text => exact ih h
    case region kind left code right => exact ih h
    case inclusion left name right =>
      split at h
      · cases h
      · exact ih h
    case unclosed => cases h

lemma inline_pending {tree : FileTree} {depth : Nat} {chain : List Path} {d d' : Draft}
    (h : inline tree depth chain s d = .ok d') : d'.pending = [] := by
  cases depth <;> exact s.perform_pending h

/-- What it takes to enter a file, and what comes of it. -/
lemma enter_eq_ok {tree : FileTree}
    {deeper : List Path → Source → Draft → Except TemplateError Draft} {chain : List Path}
    {name : List Char} {here : Position} {d d' : Draft} :
    enter tree deeper chain s name here d = .ok d' ↔
      ∃ target text after, Path.resolveInclude name s.workdir s.rootdir = .ok target ∧
        chain.any (·.same target) = false ∧ tree.readText target = .ok text ∧
        deeper (target :: chain) (s.included target text)
          ((d.flushText.touch target).pushWorkdir (s.included target text).workdir) = .ok after ∧
        d' = after.leave d.directories := by
  constructor
  · intro h
    unfold enter at h
    rcases hresolve : Path.resolveInclude name s.workdir s.rootdir with e | target <;>
      rw [hresolve] at h
    · cases h
    dsimp only at h
    split at h
    · cases h
    next hchain =>
    rcases hread : tree.readText target with fault | text <;> rw [hread] at h
    · cases h
    dsimp only at h
    rcases hinner : deeper (target :: chain) (s.included target text)
      ((d.flushText.touch target).pushWorkdir (s.included target text).workdir) with e | after <;>
      rw [hinner] at h <;> cases h
    exact ⟨target, text, after, rfl, by simpa using hchain, hread, hinner, rfl⟩
  · rintro ⟨target, text, after, hresolve, hchain, hread, hinner, rfl⟩
    simp only [enter, hresolve, hchain, hread, hinner]
    rfl

lemma enter_level {tree : FileTree}
    {deeper : List Path → Source → Draft → Except TemplateError Draft}
    (hd : ∀ chain s d d', deeper chain s d = .ok d' → d.Level d') (chain : List Path)
    {name : List Char} {here : Position} {d d' : Draft}
    (h : enter tree deeper chain s name here d = .ok d') : d.Level d' := by
  obtain ⟨target, text, after, -, -, -, hinner, rfl⟩ := s.enter_eq_ok.1 h
  exact ⟨by simpa [Draft.leave, Draft.pushWorkdir] using (hd _ _ _ _ hinner).opened, rfl⟩

/-- A compile of a source, and of all it includes, leaves the level as it found it. -/
theorem inline_level {tree : FileTree} {depth : Nat} {chain : List Path} {d d' : Draft}
    (h : inline tree depth chain s d = .ok d') : d.Level d' := by
  induction depth generalizing chain s d d' with
  | zero =>
    refine s.perform_level (fun name here d d' h => ?_) h
    unfold refuse at h
    split at h <;> cases h
  | succ depth ih =>
    exact s.perform_level
      (fun name here d d' h => s.enter_level (fun chain s d d' h => ih s h) chain h) h

/-! ## The two compiles agree -/

/-- Scanning into a draft is inlining, error for error and draft for draft. -/
theorem settle_scanInto (tree : FileTree) (depth : Nat) (chain : List Path) (d : Draft)
    (hopened : d.opened = 0) :
    settle (scanInto tree depth chain s d) = inline tree depth chain s d := by
  induction depth generalizing chain s d with
  | zero =>
    rw [scanInto_eq]
    refine s.scanAll_perform ⟨fun name here d _ => ?_, fun name here d d' _ h => ?_⟩ .start
      ⟨.start s.text, d⟩ hopened
    · unfold refuse follow
      split <;> rfl
    · unfold refuse at h
      split at h <;> cases h
  | succ depth ih =>
    rw [scanInto_eq]
    refine s.scanAll_perform ⟨fun name here d hzero => ?_, fun name here d d' hzero h => ?_⟩ .start
      ⟨.start s.text, d⟩ hopened
    · unfold enter follow
      rcases Path.resolveInclude name s.workdir s.rootdir with e | target
      · rfl
      dsimp only
      split
      · rfl
      rcases tree.readText target with fault | text
      · rfl
      dsimp only
      have hchild := ih (s.included target text) (target :: chain)
        ((d.flushText.touch target).pushWorkdir (s.included target text).workdir)
        (by simpa [Draft.pushWorkdir] using hzero)
      rw [settle_withWorkdir _ _ _ _ fun after h => ?_]
      · rw [hchild]
        simp
      · rw [hchild] at h
        exact (inline_level _ h).directories
    · have hlevel := s.enter_level (fun chain s d d' h => inline_level s h) chain h
      rw [hlevel.opened, hzero]

/-- The draft that a compile starts from. -/
def start (s : Source) : Draft :=
  match s.file with
  | some file => ((default : Draft).emit (.rootdir s.rootdir)).touch file
  | none => (default : Draft).emit (.rootdir s.rootdir)

/-- The draft that a compile starts from, in the directory of the source. -/
def opening (s : Source) : Draft := s.start.pushWorkdir s.workdir

lemma opening_eq : s.opening =
    { (default : Draft) with
      program := [.rootdir s.rootdir, .workdir s.workdir]
      touched := s.file.toList
      directories := [s.workdir] } := by
  unfold opening start
  cases s.file <;> rfl

lemma draft_eq (tree : FileTree) :
    s.draft tree = s.start.withWorkdir s.workdir s.name
      (scanInto tree (tree.files.length + 1) s.file.toList s) := by
  unfold draft start
  cases s.file <;> rfl

lemma settle_draft (tree : FileTree) :
    settle (s.draft tree) =
      (inline tree (tree.files.length + 1) s.file.toList s s.opening).map (·.leave []) := by
  have hinner : settle (scanInto tree (tree.files.length + 1) s.file.toList s s.opening) =
      inline tree (tree.files.length + 1) s.file.toList s s.opening :=
    s.settle_scanInto tree _ _ _ (by rw [opening_eq]; rfl)
  have hnone : s.start.directories = [] := by
    have := congrArg Draft.directories s.opening_eq
    exact (List.cons.inj this).2
  rw [draft_eq, settle_withWorkdir _ _ _ _ fun after hafter => ?_]
  · exact hnone ▸ congrArg _ hinner
  · rw [show s.start.pushWorkdir s.workdir = s.opening from rfl, hinner] at hafter
    exact (inline_level s hafter).directories

/-- **A compile is inlining.**  What is left of a compile is the test of the evaluator. -/
theorem compile_eq (accepts : String → Program → Except TemplateError Unit) (tree : FileTree) :
    s.compile accepts tree =
      match inline tree (tree.files.length + 1) s.file.toList s s.opening with
      | .error e => .error e
      | .ok d => (accepts s.name d.program).map fun _ => ⟨s.name, d.program, d.touched⟩ := by
  have hsettle := s.settle_draft tree
  unfold compile
  rcases hinline : inline tree (tree.files.length + 1) s.file.toList s s.opening with e | d
  · rw [hinline] at hsettle
    rcases hdraft : s.draft tree with ⟨e' | _, draft⟩ <;> rw [hdraft] at hsettle <;> cases hsettle
    rfl
  · rw [hinline] at hsettle
    rcases hdraft : s.draft tree with ⟨e' | _, draft⟩ <;> rw [hdraft] at hsettle
    · cases hsettle
    · have hpending := s.inline_pending hinline
      have hdraft : draft.calm = d.leave [] := by simpa [settle, Except.map] using hsettle
      have hflush : draft.flushText = draft := by
        have : draft.pending = [] := (congrArg Draft.pending hdraft).trans hpending
        rw [Draft.flushText, if_pos this]
      have hprogram : draft.program = d.program := by
        simpa [Draft.calm, Draft.leave] using congrArg Draft.program hdraft
      have htouched : draft.touched = d.touched := by
        simpa [Draft.calm, Draft.leave] using congrArg Draft.touched hdraft
      simp only [Draft.finish, hflush, hprogram, htouched]
      cases accepts s.name d.program <;> rfl

/-- A compile succeeds where inlining does and the evaluator accepts the program. -/
lemma compile_eq_ok {accepts : String → Program → Except TemplateError Unit} {tree : FileTree}
    {c : Compiled} :
    s.compile accepts tree = .ok c ↔
      ∃ d, inline tree (tree.files.length + 1) s.file.toList s s.opening = .ok d ∧
        accepts s.name d.program = .ok () ∧ c = ⟨s.name, d.program, d.touched⟩ := by
  rw [compile_eq]
  cases inline tree (tree.files.length + 1) s.file.toList s s.opening with
  | error e => simp
  | ok d => cases h : accepts s.name d.program <;> simp [Except.map, h, eq_comm]

end Source

end BracketTemplate
