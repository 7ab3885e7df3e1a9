import Mathlib
import BracketTemplate.Proofs.Files.Modification
import BracketTemplate.Proofs.Inclusion.Dependencies

/-!
# What the root of a source decides

The root of a source is where rooted names are looked up, and what no include may leave.  A name
that is not rooted stays below the directory of the source that includes it, so the root does not
matter to it.  When every rooted name that a source reaches stands for the same file from another
root (`Source.RootedAlike`), the source compiles from there to the same program, with that root in
its prologue, or fails with the same error (`Source.compile_reroot`).  The test of the script
evaluator has no say in this, since a script does not show its directories (`Program.check_reroot`).
-/

namespace BracketTemplate

open Grammar

/-! ## Another root -/

/-- The instruction with another root. -/
def Instruction.reroot (r : Path) : Instruction → Instruction
  | .rootdir _ => .rootdir r
  | i => i

/-- The program with another root. -/
def Program.reroot (r : Path) (program : Program) : Program := program.map (Instruction.reroot r)

/-- The draft with another root. -/
def Draft.reroot (r : Path) (d : Draft) : Draft := { d with program := d.program.reroot r }

/-- The source with another root. -/
def Source.reroot (r : Path) (s : Source) : Source := { s with rootdir := r }

/-- What is compiled, with another root. -/
def Compiled.reroot (r : Path) (c : Compiled) : Compiled := { c with program := c.program.reroot r }

namespace Program

variable (r : Path)

/-- A script shows its directories by their indices only. -/
lemma lowerFrom_reroot (program : Program) (index : Nat) :
    lowerFrom index (program.reroot r) = lowerFrom index program := by
  induction program generalizing index with
  | nil => rfl
  | cons i rest ih =>
    have hhere : lowerAt index (i.reroot r) = lowerAt index i := by cases i <;> rfl
    show lowerAt index (i.reroot r) ++ lowerFrom (index + 1) (Program.reroot r rest) = _
    rw [hhere, ih]
    rfl

/-- **The test of the script evaluator does not depend on the root.** -/
theorem check_reroot (name : String) (program : Program) :
    check name (program.reroot r) = check name program := by
  have hlower : (program.reroot r).lower = program.lower := lowerFrom_reroot r program 0
  unfold check chunk
  rw [hlower]

end Program

/-! ## Drafts -/

namespace Draft

variable (r : Path) (d : Draft)

@[simp] lemma calm_reroot : (d.reroot r).calm = d.calm.reroot r := rfl

@[simp] lemma pushText_reroot (text : List Char) :
    (d.reroot r).pushText text = (d.pushText text).reroot r := rfl

@[simp] lemma trimIf_reroot (trim : Bool) :
    (d.reroot r).trimIf trim = (d.trimIf trim).reroot r := by
  cases trim <;> rfl

@[simp] lemma flushText_reroot : (d.reroot r).flushText = d.flushText.reroot r := by
  by_cases h : d.pending = []
  · simp [flushText, reroot, h]
  · simp [flushText, reroot, h, Program.reroot, Instruction.reroot]

@[simp] lemma touch_reroot (path : Path) : (d.reroot r).touch path = (d.touch path).reroot r := by
  have htouched : (d.reroot r).hasTouched path = d.hasTouched path := rfl
  unfold touch
  rw [htouched]
  split <;> rfl

@[simp] lemma pushWorkdir_reroot (dir : Path) :
    (d.reroot r).pushWorkdir dir = (d.pushWorkdir dir).reroot r := by
  simp [pushWorkdir, reroot, Program.reroot, Instruction.reroot]

@[simp] lemma leave_reroot (above : List Path) :
    (d.reroot r).leave above = (d.leave above).reroot r := by
  cases above <;> simp [leave, reroot, Program.reroot, Instruction.reroot]

lemma openRegion_reroot (kind : Region) :
    (d.reroot r).openRegion kind = (d.openRegion kind).reroot r := by
  unfold openRegion
  rw [flushText_reroot]
  rfl

lemma pushCode_reroot (code : List Char) :
    (d.reroot r).pushCode code = (d.pushCode code).reroot r := by
  unfold pushCode
  rw [show (d.reroot r).lastOpen = d.lastOpen from rfl]
  split <;> rfl

lemma closeRegion_reroot : (d.reroot r).closeRegion = d.closeRegion.reroot r := by
  unfold closeRegion
  rw [show (d.reroot r).lastOpen = d.lastOpen from rfl]
  split <;> simp [emit, reroot, Program.reroot, Instruction.reroot]

@[simp] lemma addRegion_reroot (kind : Region) (left : Bool) (code : List Char) (right : Bool) :
    (d.reroot r).addRegion kind left code right = (d.addRegion kind left code right).reroot r := by
  unfold addRegion Scan.closeRegion
  rw [trimIf_reroot, openRegion_reroot, pushCode_reroot, closeRegion_reroot]
  rfl

end Draft

/-- Whether a segment includes by a name that is looked up from the root. -/
def Grammar.Segment.isRooted : Segment → Bool
  | .inclusion _ name _ => name.head? = some '/'
  | _ => false

namespace Source

variable {tree : FileTree} {s : Source} {r : Path}

/-! ## Names -/

/-- The file that a name stands for, when it stands for one. -/
lemma eq_of_resolveInclude {name : List Char} {workdir rootdir target : Path}
    (h : Path.resolveInclude name workdir rootdir = .ok target) :
    target = if name.head? = some '/' then rootdir.join ⟨name.dropWhile (· = '/')⟩
      else workdir.join ⟨name⟩ := by
  obtain ⟨_, -, h⟩ := bind_eq_ok.1 h
  obtain ⟨_, -, h⟩ := bind_eq_ok.1 h
  cases h
  split
  · next rooted => simp
  · next hrooted =>
    rw [if_neg]
    intro hhead
    obtain ⟨rest, rfl⟩ := List.head?_eq_some_iff.1 hhead
    exact hrooted rest rfl

/-- From two roots that the directory of a source lies within, a name stands for the same unless it
is rooted. -/
lemma Confined.resolveInclude_reroot (hs : s.Confined) (hr : (s.reroot r).Confined)
    {name : List Char}
    (halike : name.head? = some '/' →
      r.join ⟨name.dropWhile (· = '/')⟩ = s.rootdir.join ⟨name.dropWhile (· = '/')⟩) :
    Path.resolveInclude name s.workdir r = Path.resolveInclude name s.workdir s.rootdir := by
  rcases hcheck : (Path.mk name).checkSegments with e | _
  · unfold Path.resolveInclude
    rw [hcheck]
    rfl
  · obtain ⟨base, q, hown, -⟩ := hs.resolveInclude hcheck
    obtain ⟨base', q', hother, -⟩ := hr.resolveInclude hcheck
    have hother : Path.resolveInclude name s.workdir r = .ok (base'.join q') := hother
    rw [hown, hother, eq_of_resolveInclude hown, eq_of_resolveInclude hother]
    split
    · next hrooted => rw [halike hrooted]
    · rfl

/-- What a source includes keeps the root, so it keeps another one. -/
lemma Confined.included_reroot (hs : s.Confined) {name text : List Char} {target : Path}
    (h : Path.resolveInclude name s.workdir s.rootdir = .ok target)
    (hread : tree.readText target = .ok text) :
    (s.reroot r).included target text = (s.included target text).reroot r := by
  have hgrounded := hs.grounded_target h
  obtain ⟨-, segment, hlast, hsegment⟩ := FileTree.readText_file hgrounded hread
  obtain ⟨dir, hdir, -⟩ := Path.parent?_segment hgrounded.absolute hlast hsegment
  simp [Source.included, reroot, hdir]

/-- Every rooted name that a source reaches stands for the same below another root. -/
def RootedAlike (tree : FileTree) (s : Source) (r : Path) : Prop :=
  ∀ t, Reaches tree s t → ∀ left name right, .inclusion left name right ∈ segments t.text →
    name.head? = some '/' →
      r.join ⟨name.dropWhile (· = '/')⟩ = s.rootdir.join ⟨name.dropWhile (· = '/')⟩

/-- A text that includes by no rooted name. -/
def Unrooted (text : List Char) : Prop := ∀ segment ∈ segments text, segment.isRooted = false

instance : DecidablePred Unrooted := fun text =>
  inferInstanceAs (Decidable (∀ segment ∈ segments text, segment.isRooted = false))

/-- Where no rooted name is reached, all roots are alike. -/
lemma rootedAlike_of_unrooted (h : ∀ t, Reaches tree s t → Unrooted t.text) :
    RootedAlike tree s r :=
  fun t ht _ _ _ hsegment hrooted => absurd hrooted (of_decide_eq_false (h t ht _ hsegment))

/-- What is reached is a text of the tree. -/
lemma Confined.unrooted_of_entries (hs : s.Confined) (hown : Unrooted s.text)
    (hall : ∀ place content time, (place, .file content time) ∈ tree.entries →
      ∀ text, Utf8.decode? content = .ok text → Unrooted text) {t : Source}
    (ht : Reaches tree s t) : Unrooted t.text := by
  rcases Relation.reflTransGen_iff_eq_or_transGen.1 ht with rfl | ht
  · exact hown
  · obtain ⟨-, target, -, hgrounded, hread⟩ := hs.reached ht
    obtain ⟨content, hbytes, hdecode⟩ := FileTree.readText_eq_ok.1 hread
    obtain ⟨place, time, hresolve⟩ := FileTree.readBytes_eq_ok.1 hbytes
    obtain ⟨-, hfound⟩ :=
      FileTree.resolve_found (FileTree.readable_of_readBytes hgrounded hbytes) hresolve
    unfold FileTree.find? at hfound
    split at hfound
    · cases hfound
    · obtain ⟨before, behind, hentries, -⟩ := List.lookup_eq_some_iff.1 hfound
      exact hall place content time (by simp [hentries]) t.text hdecode

/-! ## Compiling from another root -/

/-- Performing segments does the same to drafts with another root, when following includes does. -/
lemma perform_reroot {follow follow' : List Char → Position → Draft → Except TemplateError Draft}
    {lexemes : List Lexeme}
    (hf : ∀ left name right, .inclusion left name right ∈ lexemes.map (·.segment) →
      ∀ here d, follow' name here (d.reroot r) = (follow name here d).map (Draft.reroot r))
    (here : Position) (c : Cursor) (d : Draft) :
    (s.reroot r).perform follow' here c (d.reroot r) lexemes =
      (s.perform follow here c d lexemes).map (Draft.reroot r) := by
  induction lexemes generalizing here c d with
  | nil => simp [perform, Except.map]
  | cons lexeme rest ih =>
    have ih := @ih fun left name right hmem => hf left name right (List.mem_cons_of_mem _ hmem)
    obtain ⟨segment, n⟩ := lexeme
    cases segment with
    | literal text =>
      simp only [perform, Draft.calm_reroot, Draft.pushText_reroot]
      exact ih _ _ _
    | region kind left code right =>
      simp only [perform, Draft.calm_reroot, Draft.addRegion_reroot]
      exact ih _ _ _
    | inclusion left name right =>
      simp only [perform, Draft.calm_reroot, Draft.trimIf_reroot,
        hf left name right (by simp) here (d.calm.trimIf left)]
      rcases follow name here (d.calm.trimIf left) with e | entered
      · rfl
      · exact ih _ _ { entered with skipNewline := right }
    | unclosed => rfl

/-- **A source and all that it includes are inlined alike from another root**, when rooted names
stand for the same there. -/
theorem inline_reroot (hs : s.Confined) (hr : (s.reroot r).Confined) (halike : RootedAlike tree s r)
    (depth : Nat) (chain : List Path) (d : Draft) :
    inline tree depth chain (s.reroot r) (d.reroot r) =
      (inline tree depth chain s d).map (Draft.reroot r) := by
  have hresolve : ∀ left name right, .inclusion left name right ∈ segments s.text →
      Path.resolveInclude name s.workdir r = Path.resolveInclude name s.workdir s.rootdir :=
    fun left name right hsegment =>
      hs.resolveInclude_reroot hr (halike s .refl left name right hsegment)
  induction depth generalizing chain s d with
  | zero =>
    refine perform_reroot (fun left name right hsegment here d => ?_) _ _ _
    show refuse (s.reroot r) name here (d.reroot r) = _
    unfold refuse
    rw [show Path.resolveInclude name (s.reroot r).workdir (s.reroot r).rootdir = _ from
      hresolve left name right hsegment]
    cases Path.resolveInclude name s.workdir s.rootdir <;> rfl
  | succ depth ih =>
    refine perform_reroot (fun left name right hsegment here d => ?_) _ _ _
    show enter tree (inline tree depth) chain (s.reroot r) name here (d.reroot r) = _
    unfold enter
    rw [show Path.resolveInclude name (s.reroot r).workdir (s.reroot r).rootdir = _ from
      hresolve left name right hsegment]
    rcases htarget : Path.resolveInclude name s.workdir s.rootdir with e | target
    · rfl
    dsimp only
    split
    · rfl
    rcases hread : tree.readText target with fault | text
    · rfl
    dsimp only
    -- the included source is confined to both roots, and reaches no more than this one
    have hincludes : Includes tree s (s.included target text) := .mk hsegment htarget hread
    have hchild := hs.included htarget hread
    have hother : ((s.included target text).reroot r).Confined := by
      rw [← hs.included_reroot htarget hread]
      exact hr.included ((hresolve left name right hsegment).trans htarget) hread
    have halikeChild : RootedAlike tree (s.included target text) r := fun t ht =>
      halike t (.head hincludes ht)
    have hinner := ih hchild hother halikeChild (target :: chain)
      ((d.flushText.touch target).pushWorkdir (s.included target text).workdir)
      (fun left name right hsegment =>
        hchild.resolveInclude_reroot hother (halikeChild _ .refl left name right hsegment))
    rw [hs.included_reroot htarget hread, Draft.flushText_reroot, Draft.touch_reroot,
      show ((s.included target text).reroot r).workdir = (s.included target text).workdir from rfl,
      Draft.pushWorkdir_reroot, hinner]
    rcases inline tree depth (target :: chain) (s.included target text)
      ((d.flushText.touch target).pushWorkdir (s.included target text).workdir) with e | after
    · rfl
    · exact congrArg Except.ok (after.leave_reroot r d.directories)

/-- **A source compiles alike from another root**, when rooted names stand for the same there: to
the same program but for the root that it sets, or to the same error. -/
theorem compile_reroot (hs : s.Confined) (hr : (s.reroot r).Confined)
    (halike : RootedAlike tree s r) :
    (s.reroot r).compile Program.check tree =
      (s.compile Program.check tree).map (Compiled.reroot r) := by
  have hopening : (s.reroot r).opening = s.opening.reroot r := by
    rw [opening_eq, opening_eq]
    rfl
  have hinline := inline_reroot hs hr halike (tree.files.length + 1) s.file.toList s.opening
  rw [compile_eq, compile_eq, hopening, show (s.reroot r).file = s.file from rfl, hinline]
  rcases inline tree (tree.files.length + 1) s.file.toList s s.opening with e | d
  · rfl
  · show Except.map _ (Program.check s.name (d.program.reroot r)) =
      Except.map _ (Except.map _ (Program.check s.name d.program))
    rw [Program.check_reroot]
    cases Program.check s.name d.program <;> rfl

end Source

end BracketTemplate
