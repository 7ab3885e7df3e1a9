import Mathlib
import BracketTemplate.Proofs.Inclusion.Splice
import BracketTemplate.Proofs.Scanning.Fragments

/-!
# The stack of directories

Work in a directory may enter other directories, leave them again, do some of its work in yet
another one, and fail at any point of this with directories still entered.  As long as it does not
leave a directory that it has not entered, all of this is over when the work is
(`withWorkdir_scoped`): the directories are those from before, and the work has succeeded or failed
on its own account.

Evaluation follows the instructions and knows nothing of the stack.  That it is in the right
directory at any time is the invariant `Settled`: the last instruction that sets a directory sets
the one that was entered last.  Every operation establishes it anew or leaves it alone
(`settled_states`).
-/

namespace BracketTemplate

namespace Draft

/-! ## Work -/

/-- Work on a draft with a value at its end.  It can look at the draft whenever it likes, and
fail. -/
inductive Work : Type → Type 1 where
  | done {α : Type} (value : α) : Work α
  | fail {α : Type} (error : TemplateError) : Work α
  | look {α : Type} (next : Draft → Work α) : Work α
  | edit {α : Type} (e : Edit) (next : Work α) : Work α
  | touch {α : Type} (path : Path) (next : Work α) : Work α
  | enter {α : Type} (dir : Path) (next : Work α) : Work α
  | leave {α : Type} (file : String) (next : Except TemplateError Unit → Work α) : Work α
  /-- Does some of the work in a directory; an error of it can be passed on or not. -/
  | within {α β : Type} (dir : Path) (file : String) (body : Work β)
      (next : Except TemplateError β → Work α) : Work α

namespace Work

variable {α : Type}

/-- Does the work. -/
def run {α : Type} : Work α → Draft → Except TemplateError α × Draft
  | done value, d => (.ok value, d)
  | fail error, d => (.error error, d)
  | look next, d => (next d).run d
  | edit e next, d => next.run (d.edit e)
  | touch path next, d => next.run (d.touch path)
  | enter dir next, d => next.run (d.pushWorkdir dir)
  | leave file next, d => (next (d.popWorkdir file).1).run (d.popWorkdir file).2
  | within dir file body next, d =>
    let after := d.withWorkdir dir file body.run
    (next after.1).run after.2

/-- The drafts that the work goes through, from the first one on. -/
def states {α : Type} : Work α → Draft → List Draft
  | done _, d => [d]
  | fail _, d => [d]
  | look next, d => (next d).states d
  | edit e next, d => d :: next.states (d.edit e)
  | touch path next, d => d :: next.states (d.touch path)
  | enter dir next, d => d :: next.states (d.pushWorkdir dir)
  | leave file next, d => d :: (next (d.popWorkdir file).1).states (d.popWorkdir file).2
  | within dir file body next, d =>
    let after := d.withWorkdir dir file body.run
    d :: body.states (d.pushWorkdir dir) ++ (next after.1).states after.2

/-- The work leaves no directory when there are only so many, and neither does the work in it, which
starts with one more than there are then. -/
def StaysAbove {α : Type} (depth : Nat) : Work α → Draft → Prop
  | done _, _ => True
  | fail _, _ => True
  | look next, d => (next d).StaysAbove depth d
  | edit e next, d => next.StaysAbove depth (d.edit e)
  | touch path next, d => next.StaysAbove depth (d.touch path)
  | enter dir next, d => next.StaysAbove depth (d.pushWorkdir dir)
  | leave file next, d => depth < d.directories.length ∧
    (next (d.popWorkdir file).1).StaysAbove depth (d.popWorkdir file).2
  | within dir file body next, d =>
    let after := d.withWorkdir dir file body.run
    body.StaysAbove (d.directories.length + 1) (d.pushWorkdir dir) ∧
      (next after.1).StaysAbove depth after.2

/-- The work adds no instruction that sets a directory, but by entering and leaving one. -/
def Undirected {α : Type} : Work α → Prop
  | done _ => True
  | fail _ => True
  | look next => ∀ d, (next d).Undirected
  | edit e next => (∀ dir, e ≠ .emit (.workdir dir)) ∧ next.Undirected
  | touch _ next => next.Undirected
  | enter _ next => next.Undirected
  | leave _ next => ∀ result, (next result).Undirected
  | within _ _ body next => body.Undirected ∧ ∀ result, (next result).Undirected

end Work

/-! ## Directories -/

variable {d : Draft} {dir : Path} {file : String}

lemma directories_edit (d : Draft) (e : Edit) : (d.edit e).directories = d.directories := by
  cases e with
  | text | trim | emit => rfl
  | flush => exact d.directories_flushText
  | opening => exact d.directories_flushText
  | code code =>
    rw [edit, pushCode]
    split <;> rfl
  | closing =>
    rw [edit, closeRegion]
    split <;> rfl

lemma directories_popWorkdir (d : Draft) (file : String) :
    (d.popWorkdir file).2.directories = d.directories.tail := by
  obtain ⟨_, _, _, _, _, _, _, directories⟩ := d
  rcases directories with _ | ⟨dir, _ | ⟨top, rest⟩⟩ <;> rfl

/-- Work that leaves the directories below its own alone is left with them, and with its own
result. -/
lemma withWorkdir_of_above {α : Type} {work : Draft → Except TemplateError α × Draft}
    (h : ∃ above, (work (d.pushWorkdir dir)).2.directories = above ++ dir :: d.directories) :
    (d.withWorkdir dir file work).2.directories = d.directories ∧
      (d.withWorkdir dir file work).1 = (work (d.pushWorkdir dir)).1 := by
  obtain ⟨above, habove⟩ := h
  unfold withWorkdir
  rcases hwork : work (d.pushWorkdir dir) with ⟨result, after⟩
  rw [hwork] at habove
  have hdrop : after.directories.drop (after.directories.length - (d.directories.length + 1)) =
      dir :: d.directories := by
    have hdirs : after.directories = above ++ dir :: d.directories := habove
    rw [hdirs]
    simp
  have hleave : ∃ left, popWorkdir { after with directories := dir :: d.directories } file =
      (.ok (), left) ∧ left.directories = d.directories := by
    unfold popWorkdir
    rcases d.directories with _ | ⟨top, rest⟩
    · exact ⟨_, rfl, rfl⟩
    · exact ⟨_, rfl, rfl⟩
  obtain ⟨left, hpop, hleft⟩ := hleave
  simp only [hdrop, hpop]
  cases result with
  | ok value => exact ⟨hleft, rfl⟩
  | error e => exact ⟨hleft, rfl⟩

/-- **Work leaves the directories that it must not leave.** -/
theorem Work.StaysAbove.directories {α : Type} {work : Work α} {above below : List Path}
    (h : work.StaysAbove below.length d) (hdirs : d.directories = above ++ below) :
    ∃ above', (work.run d).2.directories = above' ++ below := by
  induction work generalizing d above below with
  | done value => exact ⟨above, hdirs⟩
  | fail error => exact ⟨above, hdirs⟩
  | look next ih => exact ih d h hdirs
  | edit e next ih => exact ih h ((d.directories_edit e).trans hdirs)
  | touch path next ih => exact ih h ((d.directories_touch path).trans hdirs)
  | enter dir next ih =>
    have hentered : (d.pushWorkdir dir).directories = (dir :: above) ++ below :=
      congrArg (dir :: ·) hdirs
    exact ih h hentered
  | leave file next ih =>
    obtain ⟨hdepth, hnext⟩ := h
    have hne : above ≠ [] := by
      rintro rfl
      rw [hdirs] at hdepth
      simp at hdepth
    have hleft : (d.popWorkdir file).2.directories = above.tail ++ below := by
      rw [directories_popWorkdir, hdirs, List.tail_append_of_ne_nil hne]
    exact ih _ hnext hleft
  | within dir file body next ihBody ih =>
    obtain ⟨hbody, hnext⟩ := h
    have hentered : (d.pushWorkdir dir).directories = [] ++ dir :: d.directories := rfl
    have hinner : ∃ inner, (body.run (d.pushWorkdir dir)).2.directories =
        inner ++ dir :: d.directories := by
      refine ihBody ?_ hentered
      exact hbody
    exact ih _ hnext ((withWorkdir_of_above hinner).1.trans hdirs)

/-! ## The last directory that is set -/

/-- The last instruction of the program that sets a directory sets the one entered last. -/
def Settled (d : Draft) : Prop :=
  ∀ top ∈ d.topWorkdir, d.program.lastWorkdir = some top

/-- A draft that has just set the directory entered last. -/
lemma settled_concat {program : Program} {top : Path} {rest : List Path}
    (hprogram : d.program = program ++ [.workdir top]) (hdirs : d.directories = top :: rest) :
    d.Settled := by
  intro dir hdir
  rw [topWorkdir, hdirs] at hdir
  obtain rfl : top = dir := by simpa using hdir
  rw [hprogram, Program.lastWorkdir, List.filterMap_append]
  simp [Instruction.workdir?]

lemma settled_nil (hdirs : d.directories = []) : d.Settled := by
  intro dir hdir
  rw [topWorkdir, hdirs] at hdir
  cases hdir

lemma settled_pushWorkdir (d : Draft) (dir : Path) : (d.pushWorkdir dir).Settled :=
  settled_concat rfl rfl

lemma settled_popWorkdir (d : Draft) (file : String) : (d.popWorkdir file).2.Settled := by
  unfold popWorkdir
  split
  · next hdirs => exact settled_nil hdirs
  · next rest hdirs =>
    split
    · exact settled_nil rfl
    · exact settled_concat rfl rfl

lemma settled_withWorkdir {α : Type} (d : Draft) (dir : Path) (file : String)
    (work : Draft → Except TemplateError α × Draft) : (d.withWorkdir dir file work).2.Settled := by
  unfold withWorkdir
  rcases work (d.pushWorkdir dir) with ⟨result, after⟩
  dsimp only
  generalize ({ after with
    directories := List.drop (after.directories.length - (d.directories.length + 1))
      after.directories } : Draft) = cut
  have hpop := settled_popWorkdir cut file
  generalize cut.popWorkdir file = popped at hpop ⊢
  obtain ⟨left, final⟩ := popped
  rcases result with _ | _ <;> rcases left with _ | _ <;> exact hpop

/-- What neither changes the directories nor sets one. -/
lemma Settled.of_program {after : Draft} {added : Program} (h : d.Settled)
    (hprogram : after.program = d.program ++ added) (hadded : ∀ i ∈ added, i.workdir? = none)
    (hdirs : after.directories = d.directories) : after.Settled := by
  intro top htop
  have hnone : added.filterMap Instruction.workdir? = [] := List.filterMap_eq_nil_iff.2 hadded
  rw [hprogram, Program.lastWorkdir, List.filterMap_append, hnone, List.append_nil]
  exact h top (by rwa [topWorkdir, ← hdirs])

lemma Settled.of_same {after : Draft} (h : d.Settled) (hprogram : after.program = d.program)
    (hdirs : after.directories = d.directories) : after.Settled :=
  have hadded : after.program = d.program ++ [] := hprogram.trans (List.append_nil _).symm
  h.of_program hadded nofun hdirs

lemma settled_edit (h : d.Settled) {e : Edit} (he : ∀ dir, e ≠ .emit (.workdir dir)) :
    (d.edit e).Settled := by
  have hdirs := d.directories_edit e
  have hflush : ∀ i ∈ Grammar.emitted d.pending, i.workdir? = none := by
    unfold Grammar.emitted
    split
    · exact nofun
    · intro i hi
      rw [List.mem_singleton.1 hi]
      rfl
  cases e with
  | text | trim => exact h
  | flush => exact h.of_program d.program_flushText hflush hdirs
  | opening region => exact h.of_program d.program_flushText hflush hdirs
  | code code =>
    exact h.of_same (d.program_pushCode code) hdirs
  | closing =>
    have hkeep : ∀ i : Instruction, i.workdir? = none → ∀ j ∈ [i], j.workdir? = none := by
      intro i hi j hj
      rwa [List.mem_singleton.1 hj]
    rw [edit, closeRegion] at hdirs ⊢
    split at hdirs
    · exact h.of_program rfl (hkeep _ rfl) hdirs
    · exact h.of_program rfl (hkeep _ rfl) hdirs
    · exact h.of_same rfl hdirs
    · exact h.of_same rfl hdirs
    · exact h.of_program rfl (hkeep _ rfl) hdirs
    · exact h.of_program rfl (hkeep _ rfl) hdirs
  | emit i =>
    have hprogram : (d.edit (.emit i)).program = d.program ++ [i] := rfl
    refine h.of_program hprogram (fun j hj => ?_) hdirs
    rw [List.mem_singleton.1 hj]
    cases i with
    | workdir dir => exact absurd rfl (he dir)
    | _ => rfl

/-- **At any time the directory entered last is the last one set.** -/
theorem settled_states {α : Type} {work : Work α} (hwork : work.Undirected) (h : d.Settled) :
    ∀ s ∈ work.states d, s.Settled := by
  induction work generalizing d with
  | done value => simpa [Work.states] using h
  | fail error => simpa [Work.states] using h
  | look next ih => exact ih d (hwork d) h
  | edit e next ih => exact List.forall_mem_cons.2 ⟨h, ih hwork.2 (settled_edit h hwork.1)⟩
  | touch path next ih =>
    refine List.forall_mem_cons.2 ⟨h, ih hwork ?_⟩
    exact h.of_same (d.program_touch path) (d.directories_touch path)
  | enter dir next ih =>
    exact List.forall_mem_cons.2 ⟨h, ih hwork (d.settled_pushWorkdir dir)⟩
  | leave file next ih =>
    exact List.forall_mem_cons.2 ⟨h, ih _ (hwork _) (d.settled_popWorkdir file)⟩
  | within dir file body next ihBody ih =>
    refine List.forall_mem_append.2 ⟨List.forall_mem_cons.2 ⟨h, ?_⟩, ?_⟩
    · exact ihBody hwork.1 (d.settled_pushWorkdir dir)
    · exact ih _ (hwork.2 _) (d.settled_withWorkdir dir file body.run)

/-- **The stack of directories is scoped.**  Work in a directory that leaves none but those it has
entered ends with the directories from before, whether it succeeds or fails, and with its own
result.  At its end the directory entered last is the last one set.  If only entering and leaving
set directories, the same holds of every draft on the way, and of every draft that any such work
comes to from a fresh one. -/
theorem withWorkdir_scoped {α : Type} (d : Draft) (dir : Path) (file : String) (work : Work α)
    (h : work.StaysAbove (d.directories.length + 1) (d.pushWorkdir dir)) :
    (d.withWorkdir dir file work.run).2.directories = d.directories ∧
    (d.withWorkdir dir file work.run).1 = (work.run (d.pushWorkdir dir)).1 ∧
    (d.withWorkdir dir file work.run).2.Settled ∧
    (work.Undirected → ∀ s ∈ work.states (d.pushWorkdir dir), s.Settled) ∧
    (default : Draft).Settled ∧
    ∀ (other : Work α) (start : Draft), other.Undirected → start.Settled →
      ∀ s ∈ other.states start, s.Settled := by
  have hentered : (d.pushWorkdir dir).directories = [] ++ dir :: d.directories := rfl
  have habove : ∃ above, (work.run (d.pushWorkdir dir)).2.directories =
      above ++ dir :: d.directories := by
    refine Work.StaysAbove.directories ?_ hentered
    exact h
  obtain ⟨hdirs, hresult⟩ : (d.withWorkdir dir file work.run).2.directories = d.directories ∧
      (d.withWorkdir dir file work.run).1 = (work.run (d.pushWorkdir dir)).1 :=
    withWorkdir_of_above habove
  refine ⟨hdirs, hresult, d.settled_withWorkdir dir file work.run, fun hwork => ?_, settled_nil rfl,
    fun other start hother hstart => settled_states hother hstart⟩
  exact settled_states hwork (d.settled_pushWorkdir dir)

/-- Work that fails with a directory entered that was not left, after other work in it has done
so. -/
def strayWork : Work Unit :=
  .enter ⟨"/r/a/b".toList⟩ (.leave "page" fun _ => .enter ⟨"/r/a/c".toList⟩
    (.within ⟨"/r/h".toList⟩ "h"
      (.enter ⟨"/r/h/i".toList⟩ (.fail (.compileBare "h" .noDirectory) : Work Unit))
      fun _ => .edit (.text ['x']) (.fail (.compileBare "page" .noDirectory))))

/-- Its directories are gone when it is over, and its error is the outer one. -/
theorem withWorkdir_scoped_stray :
    let d := (default : Draft).pushWorkdir ⟨"/r".toList⟩
    let after := d.withWorkdir ⟨"/r/a".toList⟩ "page" strayWork.run
    strayWork.StaysAbove 2 (d.pushWorkdir ⟨"/r/a".toList⟩) ∧ strayWork.Undirected ∧
      after.2.directories = [⟨"/r".toList⟩] ∧ after.2.Settled ∧
      after.1 = .error (.compileBare "page" .noDirectory) := by
  intro d after
  have hstays : strayWork.StaysAbove 2 (d.pushWorkdir ⟨"/r/a".toList⟩) :=
    ⟨by decide, trivial, trivial⟩
  have hundirected : strayWork.Undirected := by
    simp [strayWork, Work.Undirected]
  obtain ⟨hdirs, hresult, hsettled, -⟩ :=
    withWorkdir_scoped d ⟨"/r/a".toList⟩ "page" strayWork hstays
  exact ⟨hstays, hundirected, hdirs, hsettled, hresult⟩

end Draft

end BracketTemplate
