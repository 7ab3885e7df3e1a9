import Mathlib
import BracketTemplate.Proofs.Inclusion.Confined
import BracketTemplate.Proofs.Inclusion.Inline

/-!
# Nested includes come to an end

`Source.scanInto` counts down how many includes may still be nested, and reports a circular include
when the count is used up.  That bound is never met: every include that is followed enters a file
that is on the chain of includes not yet, and the tree has only so many files.  `Room` is the
invariant behind this; what is left of the count is at least the number of files that are not on the
chain.

So that nothing here depends on the count, `Scanned` says without it what scanning a source does.
It is a derivation, so it is finite by itself, and its index bounds how many includes are nested in
it.  `scanned_total` is termination: where there is room, there is a derivation.
`Scanned.eq_scanAll` says that a derivation has only one outcome, the one that the program computes.
-/

namespace BracketTemplate

namespace Source

/-! ## Room on the chain -/

/-- There are files enough on the chain to leave no more than so many others in the tree. -/
def Room (tree : FileTree) (n : Nat) (chain : List Path) : Prop :=
  ∃ files : List Path, files ⊆ chain ∧
    (∀ p ∈ files, p.Grounded ∧ ∃ text, tree.readText p = .ok text) ∧
    (files.Pairwise fun p q => p.same q = false) ∧ files.length + n = tree.files.length

variable {tree : FileTree}

lemma room_start (chain : List Path) : Room tree tree.files.length chain :=
  ⟨[], by simp, by simp, List.Pairwise.nil, Nat.zero_add _⟩

/-- **A file that is entered takes room.**  There was some, and there is one less. -/
theorem Room.enter {n : Nat} {chain : List Path} (h : Room tree n chain) {target : Path}
    (htarget : target.Grounded) {text : List Char} (hread : tree.readText target = .ok text)
    (hfresh : chain.any (·.same target) = false) :
    ∃ m, n = m + 1 ∧ Room tree m (target :: chain) := by
  obtain ⟨files, hsub, hfiles, hdistinct, hlength⟩ := h
  have hmore : ∀ p ∈ target :: files, p.Grounded ∧ ∃ text, tree.readText p = .ok text := by
    intro p hp
    rcases List.mem_cons.1 hp with rfl | hp
    · exact ⟨htarget, text, hread⟩
    · exact hfiles p hp
  have hapart : (target :: files).Pairwise fun p q => p.same q = false := by
    refine List.pairwise_cons.2 ⟨fun p hp => ?_, hdistinct⟩
    rw [Path.same_comm]
    by_contra hsame
    rw [List.any_eq_false] at hfresh
    exact hfresh p (hsub hp) (by simpa using hsame)
  have hle := FileTree.length_le_files hmore hapart
  rw [List.length_cons] at hle
  obtain ⟨m, rfl⟩ : ∃ m, n = m + 1 := ⟨n - 1, by omega⟩
  refine ⟨m, rfl, target :: files, List.cons_subset_cons _ hsub, hmore, hapart, ?_⟩
  rw [List.length_cons]
  omega

/-! ## Scanning without a count -/

/-- What scanning a source from a state comes to.  The index bounds how many includes are nested. -/
inductive Scanned (tree : FileTree) :
    Nat → List Path → Source → Mode → Position → Scan.State → Outcome → Prop
  /-- Everything has been read. -/
  | done {n : Nat} {chain : List Path} {s : Source} {mode : Mode} {openedAt : Position}
      {state : Scan.State} (hend : state.cursor.rest = []) :
      Scanned tree n chain s mode openedAt state (s.finishScan mode openedAt state.draft)
  | proceed {n : Nat} {chain : List Path} {s : Source} {mode : Mode} {openedAt : Position}
      {state next : Scan.State} {outcome : Outcome} (hmore : state.cursor.rest ≠ [])
      (hscan : mode.scan state = (.proceed, next))
      (hrest : Scanned tree n chain s mode openedAt next outcome) :
      Scanned tree n chain s mode openedAt state outcome
  | switch {n : Nat} {chain : List Path} {s : Source} {mode other : Mode} {openedAt : Position}
      {state next : Scan.State} {outcome : Outcome} (hmore : state.cursor.rest ≠ [])
      (hscan : mode.scan state = (.switch other, next))
      (hrest : Scanned tree n chain s other
        (if other = .code then state.cursor.position else openedAt) next outcome) :
      Scanned tree n chain s mode openedAt state outcome
  | unrecognized {n : Nat} {chain : List Path} {s : Source} {mode : Mode} {openedAt : Position}
      {state next : Scan.State} (hmore : state.cursor.rest ≠ [])
      (hscan : mode.scan state = (.unrecognized, next)) :
      Scanned tree n chain s mode openedAt state
        (.error (s.errorAt state.cursor.position (.unrecognized (next.cursor.peek 40))), next.draft)
  /-- The name of an include is not safe. -/
  | refused {n : Nat} {chain : List Path} {s : Source} {mode : Mode} {openedAt : Position}
      {state next : Scan.State} {name : List Char} {right : Bool} {e : TemplateError}
      (hmore : state.cursor.rest ≠ []) (hscan : mode.scan state = (.includes name right, next))
      (hresolve : Path.resolveInclude name s.workdir s.rootdir = .error e) :
      Scanned tree n chain s mode openedAt state (.error e, next.draft)
  | circular {n : Nat} {chain : List Path} {s : Source} {mode : Mode} {openedAt : Position}
      {state next : Scan.State} {name : List Char} {right : Bool} {target : Path}
      (hmore : state.cursor.rest ≠ []) (hscan : mode.scan state = (.includes name right, next))
      (hresolve : Path.resolveInclude name s.workdir s.rootdir = .ok target)
      (hchain : chain.any (·.same target) = true) :
      Scanned tree n chain s mode openedAt state
        (.error (s.errorAt state.cursor.position (.circular target)), next.draft)
  | unreadable {n : Nat} {chain : List Path} {s : Source} {mode : Mode} {openedAt : Position}
      {state next : Scan.State} {name : List Char} {right : Bool} {target : Path}
      {fault : FileFault} (hmore : state.cursor.rest ≠ [])
      (hscan : mode.scan state = (.includes name right, next))
      (hresolve : Path.resolveInclude name s.workdir s.rootdir = .ok target)
      (hchain : chain.any (·.same target) = false) (hread : tree.readText target = .error fault) :
      Scanned tree n chain s mode openedAt state
        (.error (s.errorAt state.cursor.position (.unreadable target fault)), next.draft)
  /-- The included file has an error. -/
  | failed {n : Nat} {chain : List Path} {s : Source} {mode : Mode} {openedAt : Position}
      {state next : Scan.State} {name text : List Char} {right : Bool} {target : Path}
      {inner : Outcome} {e : TemplateError} {draft : Draft} (hmore : state.cursor.rest ≠ [])
      (hscan : mode.scan state = (.includes name right, next))
      (hresolve : Path.resolveInclude name s.workdir s.rootdir = .ok target)
      (hchain : chain.any (·.same target) = false) (hread : tree.readText target = .ok text)
      (hinner : Scanned tree n (target :: chain) (s.included target text) .text .start
        ⟨.start text, (next.draft.flushText.touch target).pushWorkdir
          (s.included target text).workdir⟩ inner)
      (hleave : (next.draft.flushText.touch target).withWorkdir (s.included target text).workdir
        (s.included target text).name (fun _ => inner) = (.error e, draft)) :
      Scanned tree (n + 1) chain s mode openedAt state (.error e, draft)
  /-- The included file has been read, and scanning goes on behind the include. -/
  | entered {n : Nat} {chain : List Path} {s : Source} {mode : Mode} {openedAt : Position}
      {state next : Scan.State} {name text : List Char} {right : Bool} {target : Path}
      {inner outcome : Outcome} {draft : Draft} (hmore : state.cursor.rest ≠ [])
      (hscan : mode.scan state = (.includes name right, next))
      (hresolve : Path.resolveInclude name s.workdir s.rootdir = .ok target)
      (hchain : chain.any (·.same target) = false) (hread : tree.readText target = .ok text)
      (hinner : Scanned tree n (target :: chain) (s.included target text) .text .start
        ⟨.start text, (next.draft.flushText.touch target).pushWorkdir
          (s.included target text).workdir⟩ inner)
      (hleave : (next.draft.flushText.touch target).withWorkdir (s.included target text).workdir
        (s.included target text).name (fun _ => inner) = (.ok (), draft))
      (hrest : Scanned tree (n + 1) chain s mode openedAt
        { next with draft := { draft with skipNewline := right } } outcome) :
      Scanned tree (n + 1) chain s mode openedAt state outcome

/-- Work in a directory matters only by what it comes to. -/
lemma withWorkdir_congr {d : Draft} {dir : Path} {file : String} {work : Draft → Outcome}
    {inner : Outcome} (h : work (d.pushWorkdir dir) = inner) :
    d.withWorkdir dir file work = d.withWorkdir dir file fun _ => inner := by
  unfold Draft.withWorkdir
  rw [h]

/-- Following an include into a file that can be entered. -/
lemma follow_entered {depth : Nat} {chain : List Path} {s : Source} {name text : List Char}
    {draft : Draft} {target : Path} {inner : Outcome}
    (hresolve : Path.resolveInclude name s.workdir s.rootdir = .ok target)
    (hchain : chain.any (·.same target) = false) (hread : tree.readText target = .ok text)
    (hinner : scanInto tree depth (target :: chain) (s.included target text)
      ((draft.flushText.touch target).pushWorkdir (s.included target text).workdir) = inner)
    (here : Position) :
    follow tree (depth + 1) chain s name here draft =
      (draft.flushText.touch target).withWorkdir (s.included target text).workdir
        (s.included target text).name fun _ => inner := by
  simp only [follow, hresolve, hchain, hread, Bool.false_eq_true, if_false]
  exact withWorkdir_congr hinner

/-- **A derivation computes.**  Its outcome is that of the program, with any count that exceeds the
nesting of the derivation. -/
theorem Scanned.eq_scanAll {n : Nat} {chain : List Path} {s : Source} {mode : Mode}
    {openedAt : Position} {state : Scan.State} {outcome : Outcome}
    (h : Scanned tree n chain s mode openedAt state outcome) {depth : Nat} (hdepth : n ≤ depth) :
    s.scanAll (follow tree (depth + 1) chain s) mode openedAt state = outcome := by
  induction h generalizing depth with
  | done hend => exact scanAll_of_nil _ _ _ _ hend
  | proceed hmore hscan _ ih =>
    rw [scanAll_of_ne_nil _ _ _ _ hmore, hscan]
    exact ih hdepth
  | switch hmore hscan _ ih =>
    rw [scanAll_of_ne_nil _ _ _ _ hmore, hscan]
    exact ih hdepth
  | unrecognized hmore hscan =>
    rw [scanAll_of_ne_nil _ _ _ _ hmore, hscan]
    rfl
  | refused hmore hscan hresolve =>
    rw [scanAll_of_ne_nil _ _ _ _ hmore, hscan]
    simp only [afterStep, follow, hresolve]
  | circular hmore hscan hresolve hchain =>
    rw [scanAll_of_ne_nil _ _ _ _ hmore, hscan]
    simp only [afterStep, follow, hresolve, hchain, if_true]
  | unreadable hmore hscan hresolve hchain hread =>
    rw [scanAll_of_ne_nil _ _ _ _ hmore, hscan]
    simp only [afterStep, follow, hresolve, hchain, hread, Bool.false_eq_true, if_false]
  | failed hmore hscan hresolve hchain hread _ hleave ih =>
    obtain ⟨depth, rfl⟩ := Nat.exists_eq_succ_of_ne_zero (Nat.ne_zero_of_lt hdepth)
    have hinner := ih (Nat.le_of_succ_le_succ hdepth)
    have hfollow := follow_entered hresolve hchain hread ((scanInto_eq _ _ _ _ _).trans hinner)
    rw [scanAll_of_ne_nil _ _ _ _ hmore, hscan]
    simp only [afterStep]
    rw [hfollow, hleave]
  | entered hmore hscan hresolve hchain hread _ hleave _ ihinner ih =>
    have hrest := ih hdepth
    obtain ⟨depth, rfl⟩ := Nat.exists_eq_succ_of_ne_zero (Nat.ne_zero_of_lt hdepth)
    have hinner := ihinner (Nat.le_of_succ_le_succ hdepth)
    have hfollow := follow_entered hresolve hchain hread ((scanInto_eq _ _ _ _ _).trans hinner)
    rw [scanAll_of_ne_nil _ _ _ _ hmore, hscan]
    simp only [afterStep]
    rw [hfollow, hleave]
    exact hrest

/-- **Scanning ends.**  Where there is room for so many nested includes, no more are nested. -/
theorem scanned_total {n : Nat} {chain : List Path} {s : Source} (hs : s.Confined)
    (hroom : Room tree n chain) (mode : Mode) (openedAt : Position) (state : Scan.State) :
    ∃ outcome, Scanned tree n chain s mode openedAt state outcome := by
  induction n using Nat.strong_induction_on generalizing chain s mode openedAt state with
  | _ n ihNested =>
    induction hlen : state.cursor.rest.length using Nat.strong_induction_on
      generalizing mode openedAt state with
    | _ length ih =>
      by_cases hmore : state.cursor.rest = []
      · exact ⟨_, .done hmore⟩
      have hlt : ∀ {step next}, mode.scan state = (step, next) →
          next.cursor.rest.length < length := by
        intro step next hscan
        have := (Scan.scan_takes mode hmore).length_lt hmore
        rwa [hscan, hlen] at this
      rcases hscan : mode.scan state with ⟨_ | other | ⟨name, right⟩ | _, next⟩
      · obtain ⟨outcome, hrest⟩ := ih _ (hlt hscan) mode openedAt next rfl
        exact ⟨outcome, .proceed hmore hscan hrest⟩
      · obtain ⟨outcome, hrest⟩ := ih _ (hlt hscan) other _ next rfl
        exact ⟨outcome, .switch hmore hscan hrest⟩
      · cases hresolve : Path.resolveInclude name s.workdir s.rootdir with
        | error e => exact ⟨_, .refused hmore hscan hresolve⟩
        | ok target =>
          cases hchain : chain.any (·.same target) with
          | true => exact ⟨_, .circular hmore hscan hresolve hchain⟩
          | false =>
            cases hread : tree.readText target with
            | error fault => exact ⟨_, .unreadable hmore hscan hresolve hchain hread⟩
            | ok text =>
              -- a file that is not on the chain: there is room for it
              obtain ⟨m, rfl, hroom'⟩ :=
                hroom.enter (hs.grounded_target hresolve) hread hchain
              obtain ⟨inner, hinner⟩ := ihNested m (Nat.lt_succ_self m)
                (hs.included hresolve hread) hroom' .text .start
                ⟨.start text, (next.draft.flushText.touch target).pushWorkdir
                  (s.included target text).workdir⟩
              rcases hleave : (next.draft.flushText.touch target).withWorkdir
                (s.included target text).workdir (s.included target text).name
                (fun _ => inner) with ⟨e | _, draft⟩
              · exact ⟨_, .failed hmore hscan hresolve hchain hread hinner hleave⟩
              · obtain ⟨outcome, hrest⟩ := ih _ (hlt hscan) mode openedAt
                  { next with draft := { draft with skipNewline := right } } rfl
                exact ⟨outcome, .entered hmore hscan hresolve hchain hread hinner hleave hrest⟩
      · exact ⟨_, .unrecognized hmore hscan⟩

end Source

end BracketTemplate
