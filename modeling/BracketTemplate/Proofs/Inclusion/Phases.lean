import Mathlib
import BracketTemplate.Proofs.Grammar.Closing
import BracketTemplate.Proofs.Inclusion.Confined
import BracketTemplate.Proofs.Inclusion.Inline
import BracketTemplate.Proofs.Scanning.Program

/-!
# What each mode of scanning may rely on

One step of scanning recognises what stands at the cursor and takes at least one character of it, in
every mode and from every draft, also from drafts that no compile ever holds (`scan_takes`).  So the
steps through a source are no more than its characters (`Steps.add_length_le`).  What a step does to
the count of open brackets is what the brackets in the piece that it takes do to the nesting depth
(`Counted`); the two sides are added up, not subtracted, so the count is never taken below zero.

A compile goes through less.  `Phase` says what it may rely on in each mode: in text no bracket and
no region is open, and in code a region is open and no text is pending.  Every step keeps that, and
so does every static include, since a source that is scanned to its end without an error ends in
text (`scanInto_orderly`).  Therefore it holds in all states that a compile passes (`Passes`), in
the source and in all those that it includes.
-/

namespace BracketTemplate

open Grammar

/-- The mode that scanning goes on in after a step. -/
def Step.next (mode : Mode) : Step → Mode
  | switch other => other
  | _ => mode

/-- Whether an error says that no rule of the delimiter grammar applies. -/
def TemplateError.IsUnrecognized (e : TemplateError) : Prop :=
  ∃ file line column ahead excerpt, e = .compile file line column (.unrecognized ahead) excerpt

namespace Scan

/-! ## One step -/

/-- What a step in text mode can be, once a trimmed line end is out of the way. -/
inductive TextStep (state : State) : Step × State → Prop
  | text (count : Nat) (text : List Char) :
      TextStep state (.proceed, state.write count (·.pushText text))
  | inclusion (name : List Char) (right left : Bool) (count : Nat) :
      TextStep state (.includes name right, state.write count (·.trimIf left))
  | opening (opening : Delimiter.Opening) :
      TextStep state (.switch .code, state.write opening.length (openRegion opening))

lemma textStep_cases {state : State} (h : state.cursor.rest ≠ []) :
    TextStep state (textStep state) := by
  by_cases hhead : state.cursor.rest.head? = some '['
  · obtain ⟨rest, hrest⟩ := List.head?_eq_some_iff.1 hhead
    rw [textStep_open hrest]
    cases Delimiter.include? state.cursor.rest with
    | some d => exact .inclusion _ _ d.trimLeft _
    | none =>
      obtain ⟨opening, hopening⟩ := Option.ne_none_iff_exists'.1
        (by rw [hrest]; exact opening?_ne_none rest : opening? state.cursor.rest ≠ none)
      simp only [hopening]
      exact .opening opening
  · obtain ⟨piece, text, -, -, -, hstep, -⟩ := textStep_literal h hhead
    rw [hstep]
    exact .text _ text

/-- A step in text mode is one from a calm draft, or drops the end of a line at the end of a
source. -/
lemma text_cases {state : State} (h : state.cursor.rest ≠ []) :
    (∃ count, text state = (.proceed, state.write count Draft.calm)) ∨
      ∃ count draft, draft.opened = state.draft.opened ∧ draft.lastOpen = state.draft.lastOpen ∧
        TextStep ⟨state.cursor.advance count, draft⟩ (text state) := by
  unfold text
  split
  · dsimp only
    split
    · exact .inl ⟨_, rfl⟩
    · next hend =>
      have hmore :
          (state.cursor.advance ((Delimiter.lineEnd? state.cursor.rest).getD 0)).rest ≠ [] := by
        simpa [Cursor.atEnd] using hend
      exact .inr ⟨_, state.draft.calm, rfl, rfl, textStep_cases hmore⟩
  · refine .inr ⟨0, state.draft, rfl, rfl, ?_⟩
    rw [Cursor.advance_zero]
    exact textStep_cases h

/-! ## The count of open brackets -/

/-- So many brackets are open behind a step, when so many are before it and it takes a piece of
code: those that count in the piece are added up. -/
def Counted (before after : Nat) (piece : List Char) : Prop :=
  before + tally '[' piece piece.length = after + tally ']' piece piece.length

lemma closing?_replicate (depth : Nat) :
    closing? depth (List.replicate (depth + 1) ']') = some depth := by
  induction depth with
  | zero => exact closing?_close_zero []
  | succ depth ih =>
    rw [List.replicate_succ, closing?_close_succ, ih, Option.map_some, Nat.add_comm]

/-- A piece that moves the closing bracket has its brackets counted: so many closing brackets as are
open behind it close what is open before it. -/
lemma counted_of_closing? {before after : Nat} {piece : List Char} (hcomplete : Complete piece)
    (h : ∀ code, closing? before (piece ++ code) = (closing? after code).map (piece.length + ·)) :
    Counted before after piece := by
  have hplace := h (List.replicate (after + 1) ']')
  rw [closing?_replicate, Option.map_some, closing?_eq_some] at hplace
  have hcloses := hplace.1
  simp only [closesAt, Bool.and_eq_true, decide_eq_true_eq,
    tally_append_right _ hcomplete] at hcloses
  have hno : '\\' ∉ List.replicate (after + 1) ']' := by simp
  have htake : (List.replicate (after + 1) ']').take after = List.replicate after ']' := by
    simp [List.take_replicate]
  rw [tally_of_no_backslash hno, tally_of_no_backslash hno, htake] at hcloses
  have hopened : (List.replicate after ']').count '[' = 0 := by simp [List.count_replicate]
  have hclosed : (List.replicate after ']').count ']' = after := by simp
  have hbalance := hcloses.2
  rw [hopened, hclosed] at hbalance
  unfold Counted
  omega

lemma counted_of_plain {piece : List Char} (h : Plain piece) (n : Nat) : Counted n n piece := by
  obtain ⟨hopened, hclosed⟩ := h.tally_eq_zero piece.length
  rw [Counted, hopened, hclosed]

/-- What a step does to the count of open brackets: a step inside of a region counts the brackets in
the piece that it takes, and every other step leaves the count. -/
def Counts (mode : Mode) (state : State) (result : Step × State) : Prop :=
  if mode = .code ∧ result.1 = .proceed then
    ∃ piece rest, state.cursor.rest = piece ++ rest ∧ result.2.cursor.rest = rest ∧
      Counted state.draft.opened result.2.draft.opened piece
  else result.2.draft.opened = state.draft.opened

lemma TextStep.opened {state : State} {result : Step × State} (h : TextStep state result) :
    result.2.draft.opened = state.draft.opened := by
  cases h with
  | text count text => rfl
  | inclusion name right left count => simp
  | opening opening =>
    change ((state.draft.trimIf opening.trim).openRegion opening.region).opened = _
    simp

lemma scan_counts (mode : Mode) {state : State} (h : state.cursor.rest ≠ []) :
    Counts mode state (mode.scan state) := by
  cases mode with
  | text =>
    rw [Counts, if_neg (by simp)]
    obtain ⟨count, hstep⟩ | ⟨count, draft, hopened, -, hstep⟩ := text_cases h
    · rw [Mode.scan, hstep]
      rfl
    · exact hstep.opened.trans hopened
  | code =>
    have hstep := code_step h
    rw [show Mode.code.scan state = code state from rfl]
    generalize code state = result at hstep
    cases hstep with
    | trimmed | closed =>
      rw [Counts, if_neg (by simp)]
      exact Draft.opened_closeRegion _
    | piece piece rest depth hrest hne hcomplete hclosing hdash =>
      rw [Counts, if_pos ⟨rfl, rfl⟩]
      refine ⟨piece, rest, hrest, by simp [hrest], ?_⟩
      simpa using counted_of_closing? hcomplete hclosing
    | half code hne hplain =>
      rw [Counts, if_pos ⟨rfl, rfl⟩]
      refine ⟨state.cursor.rest, [], by simp, by simp, ?_⟩
      simpa using counted_of_plain hplain state.draft.opened

/-! ## Steps through a source -/

/-- So many steps of scanning lead from one mode and state to another.  A caller may put any other
draft in the place of the one that a step has left. -/
inductive Steps : Nat → Mode → State → Mode → State → Prop
  | none {mode : Mode} {state : State} : Steps 0 mode state mode state
  | step {n : Nat} {mode last : Mode} {state next final : State} {step : Step} {draft : Draft}
      (hmore : state.cursor.rest ≠ []) (hscan : mode.scan state = (step, next))
      (hrest : Steps n (step.next mode) { next with draft } last final) :
      Steps (n + 1) mode state last final

/-- **No more steps than characters.** -/
theorem Steps.add_length_le {n : Nat} {mode last : Mode} {state final : State}
    (h : Steps n mode state last final) :
    n + final.cursor.rest.length ≤ state.cursor.rest.length := by
  induction h with
  | none => exact (Nat.zero_add _).le
  | @step n mode _ _ _ _ _ _ hmore hscan _ ih =>
    have hlt := (scan_takes mode hmore).length_lt hmore
    rw [hscan] at hlt
    dsimp only at hlt ih
    omega

/-- **Scanning comes to the end of a source**, whatever drafts its caller puts in. -/
theorem exists_steps (mode : Mode) (state : State) :
    ∃ n last final, Steps n mode state last final ∧ final.cursor.rest = [] := by
  induction hlen : state.cursor.rest.length using Nat.strong_induction_on
    generalizing mode state with
  | _ length ih =>
    by_cases hmore : state.cursor.rest = []
    · exact ⟨0, mode, state, .none, hmore⟩
    have hlt := (scan_takes mode hmore).length_lt hmore
    rcases hscan : mode.scan state with ⟨step, next⟩
    rw [hscan, hlen] at hlt
    obtain ⟨n, last, final, hsteps, hend⟩ := ih _ hlt (step.next mode) next rfl
    exact ⟨n + 1, last, final, .step hmore hscan hsteps, hend⟩

/-! ## Phases -/

/-- What a compile may rely on in a mode: in text no bracket and no region is open, and in code a
region is open and no text is pending. -/
def Phase : Mode → Draft → Prop
  | .text, d => d.opened = 0 ∧ d.lastOpen = none
  | .code, d => d.lastOpen ≠ none ∧ d.pending = []

lemma TextStep.phase {state : State} {result : Step × State} (h : TextStep state result)
    (hphase : Phase .text state.draft) : Phase (result.1.next .text) result.2.draft := by
  obtain ⟨hopened, hregion⟩ := hphase
  cases h with
  | text count text => exact ⟨hopened, hregion⟩
  | inclusion name right left count => cases left <;> exact ⟨hopened, hregion⟩
  | opening opening => exact ⟨nofun, Draft.pending_flushText _⟩

lemma lastOpen_pushCode (d : Draft) (code : List Char) :
    (d.pushCode code).lastOpen = d.lastOpen := by
  unfold Draft.pushCode
  split <;> rfl

lemma phase_closeRegion {d : Draft} (h : d.opened = 0) (trim : Bool) :
    Phase .text (closeRegion trim d) := by
  refine ⟨(Draft.opened_closeRegion d).trans h, ?_⟩
  show d.closeRegion.lastOpen = none
  unfold Draft.closeRegion
  split <;> rfl

/-- **A step keeps the phase**, and meets an include in text only. -/
theorem scan_phase {mode : Mode} {state : State} (h : state.cursor.rest ≠ [])
    (hphase : Phase mode state.draft) :
    Phase ((mode.scan state).1.next mode) (mode.scan state).2.draft := by
  cases mode with
  | text =>
    obtain ⟨count, hstep⟩ | ⟨count, draft, hopened, hregion, hstep⟩ := text_cases h
    · rw [Mode.scan, hstep]
      exact hphase
    · exact hstep.phase ⟨hopened.trans hphase.1, hregion.trans hphase.2⟩
  | code =>
    have hstep := code_step h
    rw [show Mode.code.scan state = code state from rfl]
    generalize code state = result at hstep
    cases hstep with
    | trimmed rest hrest hdepth | closed rest hrest hdepth => exact phase_closeRegion hdepth _
    | piece piece rest depth hrest hne hcomplete hclosing hdash =>
      exact ⟨by simpa [Step.next, lastOpen_pushCode] using hphase.1, by simpa using hphase.2⟩
    | half code hne hplain =>
      exact ⟨by simpa [Step.next, lastOpen_pushCode] using hphase.1, by simpa using hphase.2⟩

lemma mode_of_includes {mode : Mode} {state next : State} {name : List Char} {right : Bool}
    (h : state.cursor.rest ≠ []) (hscan : mode.scan state = (.includes name right, next)) :
    mode = .text := by
  cases mode with
  | text => rfl
  | code =>
    have hstep := code_step h
    rw [show code state = _ from hscan] at hstep
    cases hstep

end Scan

namespace Source

open Scan

variable {tree : FileTree} {s : Source}

/-! ## Static includes -/

/-- An outcome leaves the draft in text when it is no error, and its error is not that no rule
applies. -/
structure Orderly (outcome : Outcome) : Prop where
  phase : outcome.1 = .ok () → Phase .text outcome.2
  recognized : ∀ e, outcome.1 = .error e → ¬ e.IsUnrecognized

lemma orderly_error {e : TemplateError} (h : ¬ e.IsUnrecognized) (d : Draft) :
    Orderly (.error e, d) := by
  refine ⟨nofun, ?_⟩
  rintro e ⟨⟩
  exact h

lemma errorAt_orderly {cause : CompileCause} (h : ∀ ahead, cause ≠ .unrecognized ahead)
    (here : Position) (d : Draft) : Orderly (.error (s.errorAt here cause), d) := by
  refine orderly_error ?_ d
  rintro ⟨_, _, _, ahead, _, heq⟩
  cases heq
  exact h ahead rfl

lemma finishScan_orderly {mode : Mode} {d : Draft} (hphase : Phase mode d) (openedAt : Position) :
    Orderly (s.finishScan mode openedAt d) := by
  unfold finishScan
  split
  · exact errorAt_orderly (by nofun) openedAt d
  · next hdone =>
    rw [not_or, not_not] at hdone
    obtain rfl : mode = .text := by
      cases mode with
      | text => rfl
      | code => exact absurd rfl hdone.1
    refine ⟨fun _ => ⟨(Draft.opened_flushText d).trans hphase.1, ?_⟩, nofun⟩
    show d.flushText.lastOpen = none
    unfold Draft.flushText
    split <;> exact hphase.2

/-- Scanning a source to its end is orderly when following its includes is. -/
lemma scanAll_orderly {follow : List Char → Position → Draft → Outcome}
    (hf : ∀ name here d, Phase .text d → Orderly (follow name here d)) {mode : Mode}
    (openedAt : Position) {state : State} (hphase : Phase mode state.draft) :
    Orderly (s.scanAll follow mode openedAt state) := by
  induction hlen : state.cursor.rest.length using Nat.strong_induction_on
    generalizing mode openedAt state with
  | _ length ih =>
    by_cases hmore : state.cursor.rest = []
    · rw [scanAll_of_nil _ _ _ _ hmore]
      exact finishScan_orderly hphase openedAt
    have htakes := scan_takes mode hmore
    have hlt := htakes.length_lt hmore
    have hnext := scan_phase hmore hphase
    rw [scanAll_of_ne_nil _ _ _ _ hmore]
    rcases hscan : mode.scan state with ⟨_ | other | ⟨name, right⟩ | _, next⟩ <;>
      rw [hscan] at htakes hlt hnext
    · exact ih _ (hlen ▸ hlt) _ hnext rfl
    · exact ih _ (hlen ▸ hlt) _ hnext rfl
    · obtain rfl := mode_of_includes hmore hscan
      have hfollow := hf name state.cursor.position next.draft hnext
      simp only [afterStep]
      rcases hresult : follow name state.cursor.position next.draft with ⟨e | _, draft⟩ <;>
        rw [hresult] at hfollow
      · exact hfollow
      · exact ih _ (hlen ▸ hlt) _ (hfollow.phase rfl) rfl
    · exact absurd rfl htakes.1

/-- Leaving a directory leaves the phase, and is no error of the grammar. -/
lemma popWorkdir_orderly {d : Draft} (h : Phase .text d) (file : String) :
    Orderly (d.popWorkdir file) := by
  unfold Draft.popWorkdir
  split
  · refine orderly_error ?_ d
    rintro ⟨_, _, _, _, _, heq⟩
    cases heq
  · dsimp only
    split <;> exact ⟨fun _ => h, nofun⟩

/-- Work in a directory is orderly when the work is. -/
lemma withWorkdir_orderly {d : Draft} {dir : Path} {file : String} {work : Draft → Outcome}
    (h : Orderly (work (d.pushWorkdir dir))) : Orderly (d.withWorkdir dir file work) := by
  unfold Draft.withWorkdir
  rcases hwork : work (d.pushWorkdir dir) with ⟨e | _, after⟩ <;> rw [hwork] at h
  · exact ⟨nofun, h.recognized⟩
  · dsimp only
    set dropped : Draft := { after with
      directories :=
        after.directories.drop (after.directories.length - (d.directories.length + 1)) }
    have hpop := popWorkdir_orderly (show Phase .text dropped from h.phase rfl) file
    rcases hleave : dropped.popWorkdir file with ⟨_ | _, left⟩ <;> rw [hleave] at hpop
    · exact hpop
    · exact hpop

/-- The file of an include is entered in the phase that the include was met in. -/
lemma phase_entered {d : Draft} (h : Phase .text d) (target dir : Path) :
    Phase .text ((d.flushText.touch target).pushWorkdir dir) := by
  have hregion : ((d.flushText.touch target).pushWorkdir dir).lastOpen = d.lastOpen := by
    show (d.flushText.touch target).lastOpen = _
    unfold Draft.touch Draft.flushText
    split <;> split <;> rfl
  exact ⟨by simpa [Draft.pushWorkdir] using h.1, hregion.trans h.2⟩

lemma refused_orderly {name : List Char} {workdir rootdir : Path} {e : TemplateError}
    (h : Path.resolveInclude name workdir rootdir = .error e) (d : Draft) :
    Orderly (.error e, d) := by
  obtain ⟨_, _, rfl⟩ := Path.security_resolveInclude h
  refine orderly_error ?_ d
  rintro ⟨_, _, _, _, _, heq⟩
  cases heq

/-- Following a static include is orderly. -/
lemma follow_orderly {depth : Nat} {chain : List Path} {name : List Char} {here : Position}
    {d : Draft} (hphase : Phase .text d) : Orderly (follow tree depth chain s name here d) := by
  induction depth generalizing chain s name here d with
  | zero =>
    unfold follow
    rcases hresolve : Path.resolveInclude name s.workdir s.rootdir with e | target
    · exact refused_orderly hresolve d
    · exact errorAt_orderly (by nofun) here d
  | succ depth ih =>
    unfold follow
    rcases hresolve : Path.resolveInclude name s.workdir s.rootdir with e | target
    · exact refused_orderly hresolve d
    dsimp only
    split
    · exact errorAt_orderly (by nofun) here d
    rcases htext : tree.readText target with fault | text
    · exact errorAt_orderly (by nofun) here d
    -- the included file starts in text, as the including source stands in it
    refine withWorkdir_orderly ?_
    rw [scanInto_eq]
    exact scanAll_orderly (fun _ _ _ hinner => ih hinner) .start (phase_entered hphase target _)

/-- **Scanning a source is orderly**, with all that it includes. -/
theorem scanInto_orderly (depth : Nat) (chain : List Path) {d : Draft} (hphase : Phase .text d) :
    Orderly (scanInto tree depth chain s d) := by
  rw [scanInto_eq]
  exact scanAll_orderly (fun _ _ _ hinner => follow_orderly hinner) .start hphase

/-! ## The states that a compile passes -/

lemma phase_opening (s : Source) : Phase .text s.opening := by
  rw [opening_eq]
  exact ⟨rfl, rfl⟩

/-- The states of scanning that the compile of a page passes, in the page and in the files that it
includes; the numbers and the paths are those of `scanInto`. -/
inductive Passes (tree : FileTree) (page : Source) :
    Nat → List Path → Source → Mode → Scan.State → Prop
  | start : Passes tree page (tree.files.length + 1) page.file.toList page .text
      ⟨.start page.text, page.opening⟩
  | proceed {depth : Nat} {chain : List Path} {s : Source} {mode : Mode} {state next : Scan.State}
      (hpast : Passes tree page depth chain s mode state) (hmore : state.cursor.rest ≠ [])
      (hscan : mode.scan state = (.proceed, next)) : Passes tree page depth chain s mode next
  | switch {depth : Nat} {chain : List Path} {s : Source} {mode other : Mode}
      {state next : Scan.State} (hpast : Passes tree page depth chain s mode state)
      (hmore : state.cursor.rest ≠ []) (hscan : mode.scan state = (.switch other, next)) :
      Passes tree page depth chain s other next
  /-- Into the file of an include. -/
  | enter {depth : Nat} {chain : List Path} {s : Source} {mode : Mode} {state next : Scan.State}
      {name text : List Char} {right : Bool} {target : Path}
      (hpast : Passes tree page (depth + 1) chain s mode state) (hmore : state.cursor.rest ≠ [])
      (hscan : mode.scan state = (.includes name right, next))
      (hresolve : Path.resolveInclude name s.workdir s.rootdir = .ok target)
      (hchain : chain.any (·.same target) = false) (hread : tree.readText target = .ok text) :
      Passes tree page depth (target :: chain) (s.included target text) .text
        ⟨.start text, (next.draft.flushText.touch target).pushWorkdir
          (s.included target text).workdir⟩
  /-- Behind an include, which has been followed to the end of its file. -/
  | leave {depth : Nat} {chain : List Path} {s : Source} {mode : Mode} {state next : Scan.State}
      {name : List Char} {right : Bool} {draft : Draft}
      (hpast : Passes tree page depth chain s mode state) (hmore : state.cursor.rest ≠ [])
      (hscan : mode.scan state = (.includes name right, next))
      (hfollow : follow tree depth chain s name state.cursor.position next.draft =
        (.ok (), draft)) :
      Passes tree page depth chain s mode { next with draft := { draft with skipNewline := right } }

/-- **In every state that a compile passes its phase holds.** -/
theorem Passes.phase {page : Source} {depth : Nat} {chain : List Path} {mode : Mode}
    {state : Scan.State} (h : Passes tree page depth chain s mode state) :
    Phase mode state.draft := by
  induction h with
  | start => exact phase_opening page
  | proceed _ hmore hscan ih | switch _ hmore hscan ih =>
    have hnext := scan_phase hmore ih
    rwa [hscan] at hnext
  | enter _ hmore hscan _ _ _ ih =>
    obtain rfl := mode_of_includes hmore hscan
    have hnext := scan_phase hmore ih
    rw [hscan] at hnext
    exact phase_entered hnext _ _
  | @leave depth chain s mode state next name right draft _ hmore hscan hfollow ih =>
    obtain rfl := mode_of_includes hmore hscan
    have hnext := scan_phase hmore ih
    rw [hscan] at hnext
    have horderly : Orderly (.ok (), draft) := hfollow ▸ follow_orderly hnext
    exact horderly.phase rfl

/-! ## The whole compile -/

/-- No rule of the delimiter grammar is ever missed: such an error could only be the evaluator's
own. -/
lemma accepts_of_isUnrecognized {accepts : String → Program → Except TemplateError Unit}
    {e : TemplateError} (h : s.compile accepts tree = .error e) (he : e.IsUnrecognized) :
    ∃ program, accepts s.name program = .error e := by
  have horderly : Orderly (s.draft tree) := by
    rw [draft_eq]
    exact withWorkdir_orderly (scanInto_orderly _ _ s.phase_opening)
  rcases hdraft : s.draft tree with ⟨fault | _, draft⟩ <;> rw [compile, hdraft] at h
  · obtain rfl : fault = e := by simpa using h
    exact absurd he (horderly.recognized fault (by rw [hdraft]))
  · refine ⟨draft.finish.1, ?_⟩
    rcases haccepts : accepts s.name draft.finish.1 with fault | _ <;>
      simp only [haccepts, bind, Except.bind] at h
    · exact congrArg Except.error (Except.error.inj h)
    · cases h

/-- **Every step of scanning makes progress and none fails.**  From every draft and in both modes a
step takes at least one character, some rule applies to it, and it counts the brackets that it
takes, so it never closes one where none is open.  Therefore the steps through a source are no more
than its characters, they come to its end, and the loop of scanning never runs out of them; and an
error that no rule applies is not met in any compile.  In the states that a compile passes, in text
no bracket and no region is open, and in code a region is open and no text is pending. -/
theorem scan_advances :
    (∀ (mode : Mode) (state : Scan.State), state.cursor.rest ≠ [] →
      Takes state (mode.scan state) ∧ Counts mode state (mode.scan state)) ∧
    (∀ (n : Nat) (mode last : Mode) (state final : Scan.State), Steps n mode state last final →
      n + final.cursor.rest.length ≤ state.cursor.rest.length) ∧
    (∀ (mode : Mode) (state : Scan.State),
      ∃ n last final, Steps n mode state last final ∧ final.cursor.rest = []) ∧
    (∀ (s : Source) (goInto : List Char → Position → Draft → Outcome) (fuel : Nat) (mode : Mode)
      (openedAt : Position) (state : Scan.State), state.cursor.rest.length ≤ fuel →
      s.scanLoop goInto fuel mode openedAt state = s.scanAll goInto mode openedAt state) ∧
    (∀ (accepts : String → Program → Except TemplateError Unit) (tree : FileTree) (s : Source)
      (e : TemplateError), s.compile accepts tree = .error e → e.IsUnrecognized →
      ∃ program, accepts s.name program = .error e) ∧
    ∀ (tree : FileTree) (page : Source) (depth : Nat) (chain : List Path) (s : Source) (mode : Mode)
      (state : Scan.State), Passes tree page depth chain s mode state → Phase mode state.draft :=
  ⟨fun mode _ hmore => ⟨scan_takes mode hmore, scan_counts mode hmore⟩,
    fun _ _ _ _ _ hsteps => hsteps.add_length_le, exists_steps,
    fun s goInto _ mode openedAt _ hfuel => s.scanLoop_fuel goInto mode openedAt hfuel le_rfl,
    fun _ _ _ _ => accepts_of_isUnrecognized, fun _ _ _ _ _ _ _ => Passes.phase⟩

/-- A file with a region that is left open, below a directory. -/
def regionTree : FileTree where
  entries := [([['d']], .directory), ([['d'], ['h']], .file (Utf8.encode "[= y".toList) 0)]
  cwd := []

/-- A text that includes it. -/
def regionPage : Source := ⟨"[<d/h]".toList, ⟨['/']⟩, ⟨['/']⟩, none⟩

/-- The source of the included file. -/
def regionFile : Source := regionPage.included ⟨"/d/h".toList⟩ "[= y".toList

/-- The state in which the compile of the page starts. -/
def regionStart : Scan.State := ⟨.start regionPage.text, regionPage.opening⟩

/-- The state in which it enters the file. -/
def regionEntered : Scan.State where
  cursor := .start regionFile.text
  draft := ((Mode.text.scan regionStart).2.draft.flushText.touch ⟨"/d/h".toList⟩).pushWorkdir
    regionFile.workdir

/-- The state behind the opening bracket of the region. -/
def regionOpened : Scan.State := (Mode.text.scan regionEntered).2

/-- In the region of an included file the phase is that of code, and the next step takes from it. -/
theorem scan_advances_included :
    Passes regionTree regionPage 1 [⟨"/d/h".toList⟩] regionFile .code regionOpened ∧
      regionOpened.cursor.rest = ['y'] ∧ Phase .code regionOpened.draft ∧
      Takes regionOpened (Mode.code.scan regionOpened) := by
  have hstart : Passes regionTree regionPage 2 [] regionPage .text regionStart := .start
  have hmeets : Mode.text.scan regionStart =
      (.includes "d/h".toList false, (Mode.text.scan regionStart).2) := by decide +kernel
  have hentered : Passes regionTree regionPage 1 [⟨"/d/h".toList⟩] regionFile .text regionEntered :=
    .enter hstart (by decide) hmeets (by decide +kernel) (by decide) (by decide +kernel)
  have hopened : Passes regionTree regionPage 1 [⟨"/d/h".toList⟩] regionFile .code regionOpened :=
    .switch hentered (by decide +kernel) (by decide +kernel)
  obtain ⟨hstep, -, -, -, -, hphase⟩ := scan_advances
  exact ⟨hopened, by decide +kernel, hphase _ _ _ _ _ _ _ hopened,
    (hstep .code _ (by decide +kernel)).1⟩

end Source

end BracketTemplate
