import Mathlib
import BracketTemplate.Proofs.Grammar.Segment
import BracketTemplate.Template.Source

/-!
# Scanning makes progress

Every step of scanning takes at least one character and finds a rule that applies (`scan_takes`).
So the bound on the number of steps that `Source.scanLoop` carries never acts: with as many steps as
there are characters left, one more changes nothing.  `Source.scanAll` is the loop with that bound
filled in, and `scanAll_of_ne_nil` is the equation it satisfies, in which no bound is left;
everything later about scanning starts from there.
-/

namespace BracketTemplate

namespace Scan

/-- A step that has moved over at least one character and has found a rule. -/
def Takes (state : State) (result : Step × State) : Prop :=
  result.1 ≠ .unrecognized ∧
    ∃ count, 0 < count ∧ result.2.cursor = state.cursor.advance count

lemma takes_write {state : State} {step : Step} (h : step ≠ .unrecognized) {count : Nat}
    (hc : 0 < count) (f : Draft → Draft) : Takes state (step, state.write count f) :=
  ⟨h, count, hc, rfl⟩

lemma isPrefixOf_singleton (c : Char) (rest : List Char) :
    [c].isPrefixOf rest = true ↔ rest.head? = some c := by
  cases rest with
  | nil => simp
  | cons d rest => simpa using eq_comm

lemma textStep_takes {state : State} (h : state.cursor.rest ≠ []) :
    Takes state (textStep state) := by
  unfold textStep
  dsimp only
  split
  · exact takes_write (by simp) two_pos _
  split
  · exact takes_write (by simp) two_pos _
  split
  · next d hd => exact takes_write (by simp) (Grammar.include?_length_pos hd) _
  split
  · next d hd =>
    exact takes_write (by simp)
      (Grammar.opening?_length_pos (Option.or_eq_some_iff.2 (.inl hd))) _
  next hm =>
  split
  · next d hd =>
    exact takes_write (by simp)
      (Grammar.opening?_length_pos (Option.or_eq_some_iff.2 (.inr ⟨hm, hd⟩))) _
  next hopen =>
  split
  · exact takes_write (by simp) one_pos _
  next hclose =>
  split
  · next hrun =>
    exact takes_write (by simp) (List.length_pos_iff.2 (by simpa using hrun)) _
  next hrun =>
  split
  · exact takes_write (by simp) one_pos _
  next hback =>
  -- a character is text, a bracket or a backslash
  exfalso
  obtain ⟨c, rest, hr⟩ := List.exists_cons_of_ne_nil h
  rw [isPrefixOf_singleton, hr] at hclose hback
  have hb : c ≠ '[' := by
    rintro rfl
    exact Grammar.opening?_ne_none rest (by rw [Grammar.opening?, ← hr, hm, hopen]; rfl)
  have ht : Delimiter.isText c = true := by
    simp only [List.head?_cons, Option.some.injEq] at hclose hback
    simp [Delimiter.isText, hb, hclose, hback]
  simp [hr, ht] at hrun

lemma text_takes {state : State} (h : state.cursor.rest ≠ []) : Takes state (text state) := by
  unfold text
  split
  · dsimp only
    split
    · next hend =>
      -- the line end was all that was left
      refine ⟨by simp, _, ?_, rfl⟩
      by_contra hzero
      have hz : (Delimiter.lineEnd? state.cursor.rest).getD 0 = 0 := by omega
      rw [hz, Cursor.advance_zero] at hend
      exact h (by simpa [Cursor.atEnd] using hend)
    · next hend =>
      obtain ⟨hstep, count, hpos, hcursor⟩ := @textStep_takes
        ⟨state.cursor.advance _, { state.draft with skipNewline := false }⟩
        (by simpa [Cursor.atEnd] using hend)
      exact ⟨hstep, _, Nat.add_pos_right _ hpos, hcursor.trans (Cursor.advance_advance _ _ _)⟩
  · exact textStep_takes h

/-- A run of backslashes is taken whole. -/
lemma backslashes_pos {rest : List Char} (h : rest.head? = some '\\') :
    0 < (backslashes rest).2 := by
  have hrun : 0 < (rest.takeWhile (· = '\\')).length := by
    cases rest with
    | nil => cases h
    | cons c rest => cases h; simp
  unfold backslashes
  dsimp only
  split
  · exact hrun
  · split
    · exact hrun
    · split <;> exact Nat.succ_pos _

lemma codeStep_takes {state : State} (h : state.cursor.rest ≠ []) :
    Takes state (codeStep state) := by
  unfold codeStep
  dsimp only
  split
  · next hback =>
    exact takes_write (by simp) (backslashes_pos ((isPrefixOf_singleton _ _).1 hback)) _
  next hback =>
  split
  · exact takes_write (by simp) one_pos _
  next hopen =>
  split
  · exact takes_write (by simp) one_pos _
  next hclose =>
  split
  · next hrun =>
    exact takes_write (by simp) (List.length_pos_iff.2 (by simpa using hrun)) _
  next hrun =>
  split
  · exact takes_write (by simp) one_pos _
  next hdash =>
  -- a character is code, a bracket, a backslash or a dash
  exfalso
  obtain ⟨c, rest, hr⟩ := List.exists_cons_of_ne_nil h
  rw [isPrefixOf_singleton, hr] at hback hopen hclose hdash
  simp only [List.head?_cons, Option.some.injEq] at hback hopen hclose hdash
  have hc : Delimiter.isCode c = true := by simp [Delimiter.isCode, hback, hopen, hclose, hdash]
  simp [hr, hc] at hrun

lemma code_takes {state : State} (h : state.cursor.rest ≠ []) : Takes state (code state) := by
  unfold code
  dsimp only
  split
  · exact takes_write (by simp) two_pos _
  split
  · exact takes_write (by simp) one_pos _
  · exact codeStep_takes h

/-- Every step of scanning takes at least one character, and some rule applies. -/
theorem scan_takes (mode : Mode) {state : State} (h : state.cursor.rest ≠ []) :
    Takes state (mode.scan state) := by
  cases mode with
  | text => exact text_takes h
  | code => exact code_takes h

/-- What is left after a step is shorter than what was left before. -/
lemma Takes.length_lt {state : State} {result : Step × State} (ht : Takes state result)
    (h : state.cursor.rest ≠ []) : result.2.cursor.rest.length < state.cursor.rest.length := by
  obtain ⟨-, count, hpos, hcursor⟩ := ht
  rw [hcursor, Cursor.rest_advance]
  exact Grammar.length_drop_lt h hpos

end Scan

namespace Source

variable (s : Source) (follow : List Char → Position → Draft → Outcome)

/-- What scanning goes on with after a step that began at a place. -/
def afterStep (goOn : Mode → Position → Scan.State → Outcome) (mode : Mode)
    (openedAt here : Position) : Step × Scan.State → Outcome
  | (.proceed, state) => goOn mode openedAt state
  | (.switch next, state) => goOn next (if next = .code then here else openedAt) state
  | (.includes name trimRight, state) =>
    match follow name here state.draft with
    | (.error e, draft) => (.error e, draft)
    | (.ok (), draft) =>
      goOn mode openedAt { state with draft := { draft with skipNewline := trimRight } }
  | (.unrecognized, state) =>
    (.error (s.errorAt here (.unrecognized (state.cursor.peek 40))), state.draft)

lemma scanLoop_of_nil {fuel : Nat} (mode : Mode) (openedAt : Position) {state : Scan.State}
    (h : state.cursor.rest = []) :
    s.scanLoop follow fuel mode openedAt state = s.finishScan mode openedAt state.draft := by
  cases fuel with
  | zero => rfl
  | succ fuel => simp [scanLoop, Cursor.atEnd, h]

lemma scanLoop_of_ne_nil (fuel : Nat) (mode : Mode) (openedAt : Position) {state : Scan.State}
    (h : state.cursor.rest ≠ []) :
    s.scanLoop follow (fuel + 1) mode openedAt state =
      s.afterStep follow (s.scanLoop follow fuel) mode openedAt state.cursor.position
        (mode.scan state) := by
  have hend : state.cursor.atEnd = false := by simpa [Cursor.atEnd] using h
  rw [scanLoop, if_neg (by simp [hend])]
  rcases mode.scan state with ⟨_ | _ | _ | _, _⟩ <;> rfl

/-- Only how scanning goes on from shorter rests matters. -/
lemma afterStep_congr {goOn goOn' : Mode → Position → Scan.State → Outcome} {mode : Mode}
    {openedAt here : Position} {result : Step × Scan.State} {bound : Nat}
    (hlt : result.2.cursor.rest.length < bound)
    (h : ∀ mode at' (after : Scan.State), after.cursor.rest.length < bound →
      goOn mode at' after = goOn' mode at' after) :
    s.afterStep follow goOn mode openedAt here result =
      s.afterStep follow goOn' mode openedAt here result := by
  rcases result with ⟨_ | next | ⟨name, right⟩ | _, after⟩ <;> simp only [afterStep]
  · exact h _ _ _ hlt
  · exact h _ _ _ hlt
  · split
    · rfl
    · exact h _ _ _ hlt

/-- With enough steps for the characters left, the number of steps does not matter. -/
theorem scanLoop_fuel {m n : Nat} (mode : Mode) (openedAt : Position) {state : Scan.State}
    (hm : state.cursor.rest.length ≤ m) (hn : state.cursor.rest.length ≤ n) :
    s.scanLoop follow m mode openedAt state = s.scanLoop follow n mode openedAt state := by
  induction m generalizing n mode openedAt state with
  | zero =>
    have h : state.cursor.rest = [] := List.length_eq_zero_iff.1 (Nat.le_zero.1 hm)
    rw [scanLoop_of_nil _ _ _ _ h, scanLoop_of_nil _ _ _ _ h]
  | succ m ih =>
    by_cases h : state.cursor.rest = []
    · rw [scanLoop_of_nil _ _ _ _ h, scanLoop_of_nil _ _ _ _ h]
    obtain ⟨n, rfl⟩ : ∃ k, n = k + 1 :=
      Nat.exists_eq_succ_of_ne_zero (by have := List.length_pos_iff.2 h; omega)
    rw [scanLoop_of_ne_nil _ _ _ _ _ h, scanLoop_of_ne_nil _ _ _ _ _ h]
    refine s.afterStep_congr follow ((Scan.scan_takes mode h).length_lt h)
      fun mode at' after ha => ?_
    exact ih mode at' (by omega) (by omega)

/-- The loop of scanning with as many steps as there are characters left. -/
def scanAll (mode : Mode) (openedAt : Position) (state : Scan.State) : Outcome :=
  s.scanLoop follow state.cursor.rest.length mode openedAt state

lemma scanAll_of_nil (mode : Mode) (openedAt : Position) {state : Scan.State}
    (h : state.cursor.rest = []) :
    s.scanAll follow mode openedAt state = s.finishScan mode openedAt state.draft :=
  s.scanLoop_of_nil follow mode openedAt h

/-- The equation of scanning, with no bound on the number of steps. -/
theorem scanAll_of_ne_nil (mode : Mode) (openedAt : Position) {state : Scan.State}
    (h : state.cursor.rest ≠ []) :
    s.scanAll follow mode openedAt state =
      s.afterStep follow (s.scanAll follow) mode openedAt state.cursor.position
        (mode.scan state) := by
  obtain ⟨n, hn⟩ : ∃ n, state.cursor.rest.length = n + 1 :=
    Nat.exists_eq_succ_of_ne_zero (List.length_pos_iff.2 h).ne'
  rw [scanAll, hn, scanLoop_of_ne_nil _ _ _ _ _ h]
  refine s.afterStep_congr follow ((Scan.scan_takes mode h).length_lt h) fun mode at' after ha => ?_
  exact s.scanLoop_fuel follow mode at' (by omega) le_rfl

end Source

end BracketTemplate
