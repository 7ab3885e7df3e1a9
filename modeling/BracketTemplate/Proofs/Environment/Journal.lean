import Mathlib
import BracketTemplate.Proofs.Environment.Memo

/-!
# Which runs the remembered results come from

Environments are derived from one another, and go on side by side: functions are registered, called
and registered anew in any of them, and the functions work on one state.  `Desks` goes through such
deeds.  To see which bodies run, every body is made to write its runs into a journal, under the
number of the deed that registered it (`journaled`).  The journal is part of the state that
functions work on, so nothing but the running of a body can write into it, and it changes nothing
else (`journals_run`).

What an environment remembers then has its line in the journal, of a run of the very body that bears
the name in that environment (`Journaled.recorded`).  A result stays remembered in the environment
of its call and in those derived from it (`Heir`), as long as the name is not registered anew, and
there the body is not run for these arguments again (`memo_current`).
-/

namespace BracketTemplate

variable {σ : Type}

/-! ## The journal -/

/-- A run of the body of a function. -/
structure BodyRun where
  /-- The number of the deed that registered the function. -/
  registration : Nat
  args : List Value
  result : Except String Value

/-- A body that writes its runs into a journal. -/
def journaled (registration : Nat) (body : FunctionBody σ) : FunctionBody (σ × List BodyRun) :=
  fun args state =>
    let after := body args state.1
    (after.1, after.2, state.2 ++ [⟨registration, args, after.1⟩])

/-- Functions that write the same journal have been registered by the same deed. -/
lemma registration_eq {m n : Nat} {body other : FunctionBody σ} {memoize memoize' : Bool} (s : σ)
    (h : some (RegisteredFunction.mk (journaled m body) memoize) =
      some ⟨journaled n other, memoize'⟩) : m = n := by
  injection h with h
  have hruns := congrArg (fun f => (f.body [] (s, [])).2.2) h
  have hrun : (⟨m, [], (body [] s).1⟩ : BodyRun) = ⟨n, [], (other [] s).1⟩ := by
    simpa [journaled] using hruns
  exact congrArg BodyRun.registration hrun

/-- A deed whose number is `n`, with a journal. -/
def Deed.journaled (n : Nat) : Deed σ → Deed (σ × List BodyRun)
  | .register name body memoize => .register name (BracketTemplate.journaled n body) memoize
  | .call name args => .call name args
  | .derive => .derive

/-! ## Environments side by side -/

/-- Environments, and the state that the functions of them all work on. -/
structure Desks (σ : Type) where
  envs : List (Environment σ)
  state : σ

namespace Desks

/-- One new environment. -/
def new (escape : String → String) (state : σ) : Desks σ := ⟨[.new escape], state⟩

/-- A deed in an environment.  One that is derived from it is put behind the others, and both are
worked with from then on. -/
def step (desks : Desks σ) (k : Nat) (deed : Deed σ) : Desks σ :=
  match desks.envs[k]? with
  | none => desks
  | some env =>
    let after := (Desk.mk env desks.state).step deed
    match deed with
    | .derive => ⟨desks.envs ++ [after.env], after.state⟩
    | _ => ⟨desks.envs.set k after.env, after.state⟩

/-- Deeds, each in its environment, one after the other. -/
def run (desks : Desks σ) (deeds : List (Nat × Deed σ)) : Desks σ :=
  deeds.foldl (fun desks deed => desks.step deed.1 deed.2) desks

/-- The deeds, with a journal. -/
def journaledDeeds (deeds : List (Nat × Deed σ)) : List (Nat × Deed (σ × List BodyRun)) :=
  deeds.mapIdx fun n deed => (deed.1, deed.2.journaled n)

/-- What deeds come to with a journal, which is empty at the beginning. -/
def logged (escape : String → String) (state : σ) (deeds : List (Nat × Deed σ)) :
    Desks (σ × List BodyRun) :=
  (new escape (state, [])).run (journaledDeeds deeds)

lemma run_append_singleton (desks : Desks σ) (deeds : List (Nat × Deed σ)) (k : Nat)
    (deed : Deed σ) : desks.run (deeds ++ [(k, deed)]) = (desks.run deeds).step k deed := by
  rw [run, List.foldl_append]
  rfl

lemma logged_append_singleton (escape : String → String) (state : σ)
    (deeds : List (Nat × Deed σ)) (k : Nat) (deed : Deed σ) :
    logged escape state (deeds ++ [(k, deed)]) =
      (logged escape state deeds).step k (deed.journaled deeds.length) := by
  rw [logged, journaledDeeds, List.mapIdx_concat, run_append_singleton]
  rfl

/-- The environment that a deed changes or adds. -/
def target (desks : Desks σ) (k : Nat) : Deed σ → Nat
  | .derive => desks.envs.length
  | _ => k

/-- A deed changes or adds one environment, and leaves all others. -/
lemma getElem?_step {desks : Desks σ} {k : Nat} {env : Environment σ}
    (h : desks.envs[k]? = some env) (deed : Deed σ) (j : Nat) :
    (desks.step k deed).envs[j]? =
      if j = desks.target k deed then some ((Desk.mk env desks.state).step deed).env
      else desks.envs[j]? := by
  obtain ⟨hlt, -⟩ := List.getElem?_eq_some_iff.1 h
  split
  · next hj =>
    cases deed with
    | register | call =>
      obtain rfl : j = k := hj
      simp only [step, h]
      exact List.getElem?_set_self hlt
    | derive =>
      obtain rfl : j = desks.envs.length := hj
      simp [step, h]
  · next hj =>
    cases deed with
    | register | call =>
      simp only [step, h]
      exact List.getElem?_set_ne (Ne.symm hj)
    | derive =>
      simp only [step, h]
      rcases Nat.lt_or_gt_of_ne hj with hj | hj
      · exact List.getElem?_append_left hj
      · have hlt : desks.envs.length < j := hj
        rw [List.getElem?_eq_none (by simp; omega), List.getElem?_eq_none hlt.le]

/-- A deed that changes an environment is done in it. -/
lemma eq_of_eq_target {desks : Desks σ} {j k : Nat} {env : Environment σ} {deed : Deed σ}
    (h : desks.envs[j]? = some env) (hj : j = desks.target k deed) : j = k := by
  cases deed with
  | register | call => exact hj
  | derive =>
    obtain ⟨hlt, -⟩ := List.getElem?_eq_some_iff.1 h
    exact absurd hj hlt.ne

lemma state_step {desks : Desks σ} {k : Nat} {env : Environment σ}
    (h : desks.envs[k]? = some env) (deed : Deed σ) :
    (desks.step k deed).state = ((Desk.mk env desks.state).step deed).state := by
  cases deed <;> simp only [step, h]

lemma step_of_none {desks : Desks σ} {k : Nat} (h : desks.envs[k]? = none) (deed : Deed σ) :
    desks.step k deed = desks := by
  simp only [step, h]

lemma length_step {desks : Desks σ} {k : Nat} {env : Environment σ}
    (h : desks.envs[k]? = some env) (deed : Deed σ) :
    (desks.step k deed).envs.length =
      match deed with
      | .derive => desks.envs.length + 1
      | _ => desks.envs.length := by
  cases deed <;> simp [step, h]

end Desks

/-! ## With the journal and without it -/

/-- A name stands for the function that the deed with a number has registered: for its body in an
environment, and for the body with the journal in the twin of the environment. -/
structure Registered (deeds : List (Nat × Deed σ)) (env : Environment σ)
    (twin : Environment (σ × List BodyRun)) (name : String) (n : Nat) (f : RegisteredFunction σ) :
    Prop where
  deed : ∃ k, deeds[n]? = some (k, .register name f.body f.memoize)
  body : env.functions.lookup name = some f
  twin : twin.functions.lookup name = some ⟨journaled n f.body, f.memoize⟩

/-- An environment and its twin after some deeds, when so much has been written into the journal. -/
structure Journaled (deeds : List (Nat × Deed σ)) (journal : List BodyRun) (env : Environment σ)
    (twin : Environment (σ × List BodyRun)) : Prop where
  memo : twin.memo = env.memo
  functions : ∀ name, (env.functions.lookup name = none ∧ twin.functions.lookup name = none) ∨
    ∃ n f, Registered deeds env twin name n f
  /-- What is remembered has been given in a run of the body that bears the name. -/
  recorded : ∀ name key value, ((name, key), value) ∈ env.memo →
    ∃ n body args, Registered deeds env twin name n ⟨body, true⟩ ∧
      ⟨n, args, .ok value⟩ ∈ journal ∧ (∃ before, (body args before).1 = .ok value) ∧
      Environment.writtenArguments args = key

variable {deeds : List (Nat × Deed σ)} {journal : List BodyRun} {env : Environment σ}
  {twin : Environment (σ × List BodyRun)}

/-- What holds of a name goes on to hold while the name is left alone. -/
lemma Registered.keep {name : String} {n : Nat} {f : RegisteredFunction σ}
    (h : Registered deeds env twin name n f) {env' : Environment σ}
    {twin' : Environment (σ × List BodyRun)}
    (henv : env'.functions.lookup name = env.functions.lookup name)
    (htwin : twin'.functions.lookup name = twin.functions.lookup name)
    (more : List (Nat × Deed σ)) :
    Registered (deeds ++ more) env' twin' name n f := by
  obtain ⟨⟨k, hdeed⟩, hbody, hbodyTwin⟩ := h
  obtain ⟨hlt, -⟩ := List.getElem?_eq_some_iff.1 hdeed
  exact ⟨⟨k, (List.getElem?_append_left hlt).trans hdeed⟩, henv.trans hbody, htwin.trans hbodyTwin⟩

/-- An environment whose functions and memory are left alone keeps its twin. -/
lemma Journaled.keep (h : Journaled deeds journal env twin) {env' : Environment σ}
    {twin' : Environment (σ × List BodyRun)} (hfunctions : env'.functions = env.functions)
    (hmemo : env'.memo = env.memo) (htwinFunctions : twin'.functions = twin.functions)
    (htwinMemo : twin'.memo = twin.memo) (more : List (Nat × Deed σ)) (runs : List BodyRun) :
    Journaled (deeds ++ more) (journal ++ runs) env' twin' where
  memo := by rw [htwinMemo, hmemo, h.memo]
  functions name := by
    rw [hfunctions, htwinFunctions]
    refine (h.functions name).imp_right ?_
    rintro ⟨n, f, hregistered⟩
    exact ⟨n, f, hregistered.keep (by rw [hfunctions]) (by rw [htwinFunctions]) more⟩
  recorded name key value hmem := by
    rw [hmemo] at hmem
    obtain ⟨n, body, args, hregistered, hrun, hresult, hkey⟩ := h.recorded name key value hmem
    exact ⟨n, body, args, hregistered.keep (by rw [hfunctions]) (by rw [htwinFunctions]) more,
      List.mem_append_left _ hrun, hresult, hkey⟩

/-- Registering a function in an environment and in its twin. -/
lemma Journaled.register (h : Journaled deeds journal env twin) (k : Nat) (s : σ) (name : String)
    (body : FunctionBody σ) (memoize : Bool) :
    Journaled (deeds ++ [(k, .register name body memoize)]) journal
      ((Desk.mk env s).step (.register name body memoize)).env
      ((Desk.mk twin (s, journal)).step
        (.register name (journaled deeds.length body) memoize)).env := by
  rcases hcheck : checkBindingName name with e | _
  · rw [Desk.step_register_refused _ hcheck, Desk.step_register_refused _ hcheck]
    simpa using h.keep rfl rfl rfl rfl [(k, .register name body memoize)] []
  rw [Desk.step_register_valid _ hcheck, Desk.step_register_valid _ hcheck]
  have hothers {other : String} (hother : other ≠ name) (f : RegisteredFunction σ)
      (g : RegisteredFunction (σ × List BodyRun)) :
      (Environment.putFunction name f env.functions).lookup other = env.functions.lookup other ∧
      (Environment.putFunction name g twin.functions).lookup other = twin.functions.lookup other :=
    ⟨(Desk.lookup_putFunction ..).trans (if_neg hother),
      (Desk.lookup_putFunction ..).trans (if_neg hother)⟩
  refine ⟨by rw [h.memo], fun other => ?_, fun other key value hmem => ?_⟩
  · by_cases hother : other = name
    · subst hother
      exact .inr ⟨deeds.length, ⟨body, memoize⟩, ⟨k, by simp⟩,
        (Desk.lookup_putFunction ..).trans (if_pos rfl),
        (Desk.lookup_putFunction ..).trans (if_pos rfl)⟩
    · obtain ⟨henv, htwin⟩ := hothers hother ⟨body, memoize⟩ ⟨journaled deeds.length body, memoize⟩
      refine (h.functions other).imp (fun hnone => ⟨henv.trans hnone.1, htwin.trans hnone.2⟩) ?_
      rintro ⟨n, f, hregistered⟩
      exact ⟨n, f, hregistered.keep henv htwin _⟩
  · -- what is still remembered bears another name
    obtain ⟨hmem, hne⟩ := List.mem_filter.1 hmem
    have hother : other ≠ name := by simpa using hne
    obtain ⟨henv, htwin⟩ := hothers hother ⟨body, memoize⟩ ⟨journaled deeds.length body, memoize⟩
    obtain ⟨n, body', args, hregistered, hrun, hresult, hkey⟩ := h.recorded other key value hmem
    exact ⟨n, body', args, hregistered.keep henv htwin _, hrun, hresult, hkey⟩

/-- A result is remembered in an environment and in its twin, with its line in the journal. -/
lemma Journaled.remember (h : Journaled deeds journal env twin) {name : String} {n : Nat}
    {body : FunctionBody σ} {args : List Value} {value : Value} {before : σ}
    (hregistered : Registered deeds env twin name n ⟨body, true⟩)
    (hresult : (body args before).1 = .ok value) (more : List (Nat × Deed σ)) :
    Journaled (deeds ++ more) (journal ++ [⟨n, args, .ok value⟩])
      { env with memo := env.memo ++ [((name, Environment.writtenArguments args), value)] }
      { twin with memo := env.memo ++ [((name, Environment.writtenArguments args), value)] } where
  memo := rfl
  functions other := by
    refine (h.functions other).imp_right ?_
    rintro ⟨m, f, hother⟩
    exact ⟨m, f, hother.keep (by rfl) (by rfl) more⟩
  recorded other key result hmem := by
    rcases List.mem_append.1 hmem with hmem | hmem
    · obtain ⟨m, body', given, hregistered', hrun, hgiven, hkey⟩ := h.recorded other key result hmem
      exact ⟨m, body', given, hregistered'.keep (by rfl) (by rfl) more, List.mem_append_left _ hrun,
        hgiven, hkey⟩
    · obtain ⟨⟨rfl, rfl⟩, rfl⟩ : (other = name ∧ key = _) ∧ result = value := by simpa using hmem
      exact ⟨n, body, args, hregistered.keep (by rfl) (by rfl) more, by simp, ⟨before, hresult⟩,
        rfl⟩

/-- Calling a function in an environment and in its twin: the results are the same, and the journal
has a line more if the body runs. -/
lemma Journaled.call (h : Journaled deeds journal env twin) (more : List (Nat × Deed σ)) (s : σ)
    (name : String) (args : List Value) :
    ∃ result after runs env' twin', env.call name args s = (result, env', after) ∧
      twin.call name args (s, journal) = (result, twin', after, journal ++ runs) ∧
      Journaled (deeds ++ more) (journal ++ runs) env' twin' := by
  have hkeep := h.keep rfl rfl rfl rfl more
  obtain ⟨henv, htwin⟩ | ⟨n, ⟨body, memoize⟩, hregistered⟩ := h.functions name
  · exact ⟨_, s, [], env, twin, by rw [Environment.call, henv],
      by rw [Environment.call, htwin, List.append_nil], hkeep []⟩
  have henv := hregistered.body
  have htwin := hregistered.twin
  rcases hbody : body args s with ⟨result, after⟩
  cases memoize with
  | false =>
    exact ⟨result, after, [⟨n, args, result⟩], env, twin, by simp [Environment.call, henv, hbody],
      by simp [Environment.call, htwin, journaled, hbody], hkeep _⟩
  | true =>
    rcases hmemo : env.memo.lookup (name, Environment.writtenArguments args) with _ | value
    · cases result with
      | error e =>
        exact ⟨.error e, after, [⟨n, args, .error e⟩], env, twin,
          by simp [Environment.call, henv, hmemo, hbody],
          by simp [Environment.call, htwin, h.memo, hmemo, journaled, hbody], hkeep _⟩
      | ok value =>
        exact ⟨.ok value, after, [⟨n, args, .ok value⟩], _, _,
          by simp [Environment.call, henv, hmemo, hbody],
          by simp [Environment.call, htwin, h.memo, hmemo, journaled, hbody],
          h.remember hregistered (by rw [hbody]) more⟩
    · -- what is remembered is given without a run
      exact ⟨.ok value, s, [], env, twin, by simp [Environment.call, henv, hmemo],
        by simp [Environment.call, htwin, h.memo, hmemo], hkeep []⟩

/-- A deed in an environment and in its twin. -/
lemma Journaled.step (h : Journaled deeds journal env twin) (k : Nat) (s : σ) (deed : Deed σ) :
    ∃ runs, ((Desk.mk twin (s, journal)).step (deed.journaled deeds.length)).state =
        (((Desk.mk env s).step deed).state, journal ++ runs) ∧
      Journaled (deeds ++ [(k, deed)]) (journal ++ runs) ((Desk.mk env s).step deed).env
        ((Desk.mk twin (s, journal)).step (deed.journaled deeds.length)).env := by
  cases deed with
  | register name body memoize =>
    have hstate {τ : Type} (desk : Desk τ) (body : FunctionBody τ) :
        (desk.step (.register name body memoize)).state = desk.state := by
      rcases hcheck : checkBindingName name with e | _
      · rw [Desk.step_register_refused _ hcheck]
      · rw [Desk.step_register_valid _ hcheck]
    refine ⟨[], ?_, ?_⟩
    · rw [Deed.journaled, hstate, hstate, List.append_nil]
    · rw [List.append_nil]
      exact h.register k s name body memoize
  | call name args =>
    obtain ⟨result, after, runs, env', twin', henv, htwin, hjournaled⟩ :=
      h.call [(k, .call name args)] s name args
    refine ⟨runs, ?_, ?_⟩
    · simp only [Deed.journaled, Desk.step, henv, htwin]
    · simpa only [Deed.journaled, Desk.step, henv, htwin] using hjournaled
  | derive =>
    refine ⟨[], by simp [Deed.journaled, Desk.step], ?_⟩
    exact h.keep (by rfl) (by rfl) (by rfl) (by rfl) _ []

namespace Desks

/-- Environments and their twins after some deeds. -/
structure Journals (deeds : List (Nat × Deed σ)) (desks : Desks σ)
    (twins : Desks (σ × List BodyRun)) : Prop where
  state : twins.state.1 = desks.state
  length : twins.envs.length = desks.envs.length
  envs : ∀ (k : Nat) (env : Environment σ) (twin : Environment (σ × List BodyRun)),
    desks.envs[k]? = some env → twins.envs[k]? = some twin → Journaled deeds twins.state.2 env twin

lemma Journals.step {desks : Desks σ} {twins : Desks (σ × List BodyRun)}
    (h : Journals deeds desks twins) (k : Nat) (deed : Deed σ) :
    Journals (deeds ++ [(k, deed)]) (desks.step k deed)
      (twins.step k (deed.journaled deeds.length)) := by
  rcases henv : desks.envs[k]? with _ | env
  · -- where there is no environment there is no twin, and nothing is done
    have htwin : twins.envs[k]? = none := by
      rw [List.getElem?_eq_none_iff] at henv ⊢
      exact h.length.le.trans henv
    rw [step_of_none henv, step_of_none htwin]
    refine ⟨h.state, h.length, fun j env twin hj hjtwin => ?_⟩
    simpa using (h.envs j env twin hj hjtwin).keep rfl rfl rfl rfl [(k, deed)] []
  obtain ⟨twin, htwin⟩ : ∃ twin, twins.envs[k]? = some twin := by
    obtain ⟨hlt, -⟩ := List.getElem?_eq_some_iff.1 henv
    exact ⟨_, List.getElem?_eq_getElem (h.length ▸ hlt)⟩
  obtain ⟨runs, hstate, hjournaled⟩ := (h.envs k env twin henv htwin).step k desks.state deed
  have hsame : (desks.state, twins.state.2) = twins.state := by rw [← h.state]
  rw [hsame] at hstate hjournaled
  have htarget : twins.target k (deed.journaled deeds.length) = desks.target k deed := by
    cases deed with
    | derive => exact h.length
    | _ => rfl
  refine ⟨?_, ?_, fun j env' twin' hj hjtwin => ?_⟩
  · rw [state_step htwin, state_step henv, hstate]
  · rw [length_step htwin, length_step henv]
    cases deed <;> simp [Deed.journaled, h.length]
  · rw [state_step htwin, hstate]
    rw [getElem?_step henv] at hj
    rw [getElem?_step htwin, htarget] at hjtwin
    split at hj
    · next hjk =>
      rw [if_pos hjk] at hjtwin
      cases hj
      cases hjtwin
      exact hjournaled
    · next hjk =>
      rw [if_neg hjk] at hjtwin
      exact (h.envs j env' twin' hj hjtwin).keep rfl rfl rfl rfl _ _

/-- **The journal changes nothing else, and what is remembered is in it.** -/
theorem journals_run (escape : String → String) (state : σ) (deeds : List (Nat × Deed σ)) :
    Journals deeds ((new escape state).run deeds) (logged escape state deeds) := by
  induction deeds using List.reverseRecOn with
  | nil =>
    refine ⟨rfl, rfl, fun k env twin henv htwin => ?_⟩
    obtain rfl : k = 0 := by
      obtain ⟨hlt, -⟩ := List.getElem?_eq_some_iff.1 henv
      exact Nat.lt_one_iff.1 hlt
    cases henv
    cases htwin
    exact ⟨rfl, fun _ => .inl ⟨rfl, rfl⟩, fun _ _ _ hmem => by cases hmem⟩
  | append_singleton deeds deed ih =>
    rw [run_append_singleton, logged_append_singleton]
    exact ih.step deed.1 deed.2

/-- The deed that registered a function has been done. -/
lemma registration_lt (escape : String → String) (state : σ) (deeds : List (Nat × Deed σ))
    {k n : Nat}
    {twin : Environment (σ × List BodyRun)} {name : String} {body : FunctionBody σ} {memoize : Bool}
    (h : (logged escape state deeds).envs[k]? = some twin)
    (hlookup : twin.functions.lookup name = some ⟨journaled n body, memoize⟩) :
    n < deeds.length := by
  have hjournals := journals_run escape state deeds
  obtain ⟨env, henv⟩ : ∃ env, ((new escape state).run deeds).envs[k]? = some env := by
    obtain ⟨hlt, -⟩ := List.getElem?_eq_some_iff.1 h
    exact ⟨_, List.getElem?_eq_getElem (hjournals.length ▸ hlt)⟩
  obtain ⟨-, hnone⟩ | ⟨m, f, ⟨⟨_, hdeed⟩, -, hbody⟩⟩ :=
    (hjournals.envs k env twin henv h).functions name
  · rw [hlookup] at hnone
    cases hnone
  · rw [registration_eq state (hlookup.symm.trans hbody)]
    exact (List.getElem?_eq_some_iff.1 hdeed).1

/-! ## Where a result stays remembered -/

/-- After some deeds an environment is the one that it was, or has been derived from it. -/
inductive Heir (desks : Desks σ) (k : Nat) : List (Nat × Deed σ) → Nat → Prop
  | same : Heir desks k [] k
  | stays {deeds : List (Nat × Deed σ)} {j : Nat} (h : Heir desks k deeds j)
      (deed : Nat × Deed σ) : Heir desks k (deeds ++ [deed]) j
  | derived {deeds : List (Nat × Deed σ)} {j : Nat} (h : Heir desks k deeds j) :
      Heir desks k (deeds ++ [(j, .derive)]) (desks.run deeds).envs.length

/-- As long as a name stands for the function of a deed, a result is remembered for it. -/
def Keeps (n : Nat) (name key : String) (value : Value) (twin : Environment (σ × List BodyRun)) :
    Prop :=
  ∀ body, twin.functions.lookup name = some ⟨journaled n body, true⟩ →
    twin.memo.lookup (name, key) = some value

variable {n : Nat} {name key : String} {value : Value}

/-- Dropping what is remembered under one name leaves what is remembered under the others. -/
lemma lookup_filter_ne {other : String} (h : name ≠ other)
    (memo : List ((String × String) × Value)) :
    (memo.filter fun m => m.1.1 != other).lookup (name, key) = memo.lookup (name, key) := by
  induction memo with
  | nil => rfl
  | cons m memo ih =>
    obtain ⟨⟨other', key'⟩, result⟩ := m
    rw [List.filter_cons]
    split
    · rw [lookup_cons_eq_ite, lookup_cons_eq_ite, ih]
    · next hdropped =>
      obtain rfl : other' = other := by simpa using hdropped
      rw [ih, lookup_cons_eq_ite, if_neg (by simp [h])]

/-- Only registering the name can make an environment forget. -/
lemma Keeps.step {twin : Environment (σ × List BodyRun)} {state : σ × List BodyRun} {m : Nat}
    (h : Keeps n name key value twin) (hmn : m ≠ n) (deed : Deed σ) :
    Keeps n name key value ((Desk.mk twin state).step (deed.journaled m)).env := by
  cases deed with
  | register other body memoize =>
    rw [Deed.journaled]
    rcases hcheck : checkBindingName other with e | _
    · rwa [Desk.step_register_refused _ hcheck]
    rw [Desk.step_register_valid _ hcheck]
    intro body' hlookup
    dsimp only at hlookup ⊢
    rw [Desk.lookup_putFunction] at hlookup
    split at hlookup
    · -- the name stands for the function of this deed from now on
      exact absurd (registration_eq state.1 hlookup) hmn
    · next hother => rw [lookup_filter_ne hother, h body' hlookup]
  | call other args =>
    intro body' hlookup
    obtain ⟨hfunctions, hmemo⟩ := Desk.step_call (Desk.mk twin state) other args
    rw [Deed.journaled, hfunctions] at hlookup
    have hkept := h body' hlookup
    rcases hmemo with hmemo | ⟨_, result, -, -, hmemo⟩
    · rwa [Deed.journaled, hmemo]
    · rw [Deed.journaled, hmemo, List.lookup_append, hkept, Option.some_or]
  | derive => exact h

/-- An environment that derives from one that keeps a result is there, and keeps it too. -/
lemma Heir.keeps (escape : String → String) (state : σ) {before deeds : List (Nat × Deed σ)}
    {k j : Nat} (h : Heir ((new escape state).run before) k deeds j) (hn : n < before.length)
    (hstart : ∃ twin, (logged escape state before).envs[k]? = some twin ∧
      Keeps n name key value twin) :
    ∃ twin, (logged escape state (before ++ deeds)).envs[j]? = some twin ∧
      Keeps n name key value twin := by
  have hnumber (deeds : List (Nat × Deed σ)) : (before ++ deeds).length ≠ n := by
    rw [List.length_append]
    omega
  induction h with
  | same => simpa using hstart
  | @stays deeds j _ deed ih =>
    obtain ⟨twin, htwin, hkeeps⟩ := ih
    rw [← List.append_assoc, logged_append_singleton]
    rcases hat : (logged escape state (before ++ deeds)).envs[deed.1]? with _ | env
    · rw [step_of_none hat]
      exact ⟨twin, htwin, hkeeps⟩
    rw [getElem?_step hat]
    split
    · next hj =>
      obtain rfl : j = deed.1 := eq_of_eq_target htwin hj
      obtain rfl : twin = env := Option.some.inj (htwin.symm.trans hat)
      exact ⟨_, rfl, hkeeps.step (hnumber deeds) deed.2⟩
    · exact ⟨twin, htwin, hkeeps⟩
  | @derived deeds j _ ih =>
    obtain ⟨twin, htwin, hkeeps⟩ := ih
    have hrun : ((new escape state).run before).run deeds =
        (new escape state).run (before ++ deeds) := List.foldl_append.symm
    rw [← List.append_assoc, logged_append_singleton, getElem?_step htwin, hrun,
      ← (journals_run escape state (before ++ deeds)).length]
    exact ⟨_, if_pos rfl, hkeeps.step (hnumber deeds) .derive⟩

/-- A call of a function that remembers has its result remembered when it succeeds. -/
lemma keeps_of_call {twin : Environment (σ × List BodyRun)} {body : FunctionBody σ}
    {args : List Value} {state : σ × List BodyRun}
    (hlookup : twin.functions.lookup name = some ⟨journaled n body, true⟩)
    (hresult : (twin.call name args state).1 = .ok value) :
    Keeps n name (Environment.writtenArguments args) value (twin.call name args state).2.1 := by
  intro _ _
  unfold Environment.call at hresult ⊢
  simp only [hlookup, Bool.not_true] at hresult ⊢
  rcases hmemo : twin.memo.lookup (name, Environment.writtenArguments args) with _ | found
  · rcases hbody : journaled n body args state with ⟨e | found, after⟩ <;>
      simp [hmemo, hbody] at hresult ⊢
    rw [List.lookup_append, hmemo]
    simp [hresult]
  · simp [hmemo] at hresult ⊢
    rw [hresult]

/-- A call that fails leaves the environment as it is. -/
lemma env_of_call_error {env : Environment σ} {args : List Value} {s : σ} {e : String}
    (h : (env.call name args s).1 = .error e) : (env.call name args s).2.1 = env := by
  rcases hlookup : env.functions.lookup name with _ | ⟨body, memoize⟩
  · simp [Environment.call, hlookup]
  cases memoize with
  | false => simp [Environment.call, hlookup]
  | true =>
    obtain ⟨found, -, hcall⟩ | ⟨found, after, -, hcall⟩ | ⟨e', after, -, hcall⟩ :=
      Desk.call_memoized hlookup args s <;> rw [hcall] at h ⊢
    cases h

/-- A call of a function that does not remember leaves the environment as it is. -/
lemma env_of_call_forgetful {env : Environment σ}
    (h : ∀ body, env.functions.lookup name ≠ some ⟨body, true⟩) (args : List Value) (s : σ) :
    (env.call name args s).2.1 = env := by
  rcases hlookup : env.functions.lookup name with _ | ⟨body, memoize⟩
  · simp [Environment.call, hlookup]
  cases memoize with
  | false => simp [Environment.call, hlookup]
  | true => exact absurd hlookup (h body)

/-- A call for which a result is remembered gives that, and nothing is run. -/
lemma call_of_lookup {τ : Type} {env : Environment τ} {body : FunctionBody τ} {args : List Value}
    (hlookup : env.functions.lookup name = some ⟨body, true⟩)
    (hmemo : env.memo.lookup (name, Environment.writtenArguments args) = some value) (state : τ) :
    env.call name args state = (.ok value, env, state) := by
  simp [Environment.call, hlookup, hmemo]

/-- **What is remembered belongs to the functions of now.**  Functions are registered, called and
registered anew, and environments derived, in any order.  What an environment remembers under a name
then has been given in a run of just the body that bears the name in it, registered as one that
remembers, and on arguments with that written form.  A call that fails, or one of a function that
does not remember, leaves the environment as it is.  And when a call of a function that remembers
has succeeded, then in this environment and in those derived from it a later call for the same
written arguments, of the function of the same registration, gives its result and runs nothing:
neither the state of the functions nor the journal changes. -/
theorem memo_current (escape : String → String) (state : σ) :
    (∀ (deeds : List (Nat × Deed σ)),
      (logged escape state deeds).state.1 = ((new escape state).run deeds).state ∧
      (logged escape state deeds).envs.length = ((new escape state).run deeds).envs.length ∧
      ∀ (k : Nat) (env : Environment σ) (twin : Environment (σ × List BodyRun)),
        ((new escape state).run deeds).envs[k]? = some env →
        (logged escape state deeds).envs[k]? = some twin →
        twin.memo = env.memo ∧
        ∀ (name key : String) (value : Value), ((name, key), value) ∈ env.memo →
          ∃ n body args, Registered deeds env twin name n ⟨body, true⟩ ∧
            ⟨n, args, .ok value⟩ ∈ (logged escape state deeds).state.2 ∧
            (∃ before, (body args before).1 = .ok value) ∧
            Environment.writtenArguments args = key) ∧
    (∀ (env : Environment σ) (name : String) (args : List Value) (s : σ),
      (∀ e, (env.call name args s).1 = .error e → (env.call name args s).2.1 = env) ∧
      ((∀ body, env.functions.lookup name ≠ some ⟨body, true⟩) →
        (env.call name args s).2.1 = env)) ∧
    ∀ (before after : List (Nat × Deed σ)) (k j n : Nat) (name : String) (args given : List Value)
      (value : Value) (body later : FunctionBody σ) (twin heir : Environment (σ × List BodyRun)),
      (logged escape state before).envs[k]? = some twin →
      twin.functions.lookup name = some ⟨journaled n body, true⟩ →
      (twin.call name args (logged escape state before).state).1 = .ok value →
      Heir ((new escape state).run (before ++ [(k, .call name args)])) k after j →
      (logged escape state (before ++ [(k, .call name args)] ++ after)).envs[j]? = some heir →
      heir.functions.lookup name = some ⟨journaled n later, true⟩ →
      Environment.writtenArguments given = Environment.writtenArguments args →
      ∀ s, heir.call name given s = (.ok value, heir, s) := by
  refine ⟨fun deeds => ?_, fun env name args s => ?_, ?_⟩
  · have hjournals := journals_run escape state deeds
    refine ⟨hjournals.state, hjournals.length, fun k env twin henv htwin => ?_⟩
    have hjournaled := hjournals.envs k env twin henv htwin
    exact ⟨hjournaled.memo, hjournaled.recorded⟩
  · exact ⟨fun _ => env_of_call_error, fun hforgetful => env_of_call_forgetful hforgetful args s⟩
  · intro before after k j n name args given value body later twin heir htwin hlookup hresult hheir
      hat hlater hkey s
    have hn : n < before.length := registration_lt escape state before htwin hlookup
    have hremembered : ∃ twin, (logged escape state (before ++ [(k, .call name args)])).envs[k]? =
        some twin ∧ Keeps n name (Environment.writtenArguments args) value twin := by
      rw [logged_append_singleton, getElem?_step htwin]
      exact ⟨_, if_pos rfl, keeps_of_call hlookup hresult⟩
    obtain ⟨_, hheirAt, hkeeps⟩ :=
      hheir.keeps escape state (by rw [List.length_append]; omega) hremembered
    obtain rfl := Option.some.inj (hheirAt.symm.trans hat)
    exact call_of_lookup hlater (hkey ▸ hkeeps later hlater) s

/-- A function that gives its first argument. -/
def first : FunctionBody Unit := fun args state => (Desk.firstOf args, state)

/-- It is registered and called, and registered anew when another environment has been derived. -/
def parting : List (Nat × Deed Unit) :=
  [(0, .register "first" first true), (0, .call "first" [.int 1]), (0, .derive),
    (0, .register "first" first false)]

/-- The derived environment still remembers the result, which the first one has dropped. -/
theorem memo_current_parting :
    (logged id () parting).envs[0]?.map (·.memo) = some [] ∧
      ∃ heir, (logged id () parting).envs[1]? = some heir ∧
        (∀ s, heir.call "first" [.int 1] s = (.ok (.int 1), heir, s)) ∧
        ∃ n body args, heir.functions.lookup "first" = some ⟨journaled n body, true⟩ ∧
          ⟨n, args, .ok (.int 1)⟩ ∈ (logged id () parting).state.2 := by
  obtain ⟨hcurrent, -, hkept⟩ := memo_current id ()
  obtain ⟨-, -, henvs⟩ := hcurrent parting
  obtain ⟨hmemo, hrecorded⟩ := henvs 1 _ _ rfl rfl
  obtain ⟨n, body, args, hregistered, hrun, -, -⟩ :=
    hrecorded "first" (Environment.writtenArguments [.int 1]) (.int 1) (List.mem_singleton.2 rfl)
  have hheir : Heir
      ((new id ()).run [(0, .register "first" first true), (0, .call "first" [.int 1])])
      0 [(0, .derive), (0, .register "first" first false)] 1 :=
    .stays (.derived .same) (0, .register "first" first false)
  refine ⟨rfl, _, rfl, ?_, n, body, args, hregistered.twin, hrun⟩
  exact hkept [(0, .register "first" first true)] _ 0 1 0 "first" [.int 1] [.int 1] (.int 1)
    first first
    _ _ rfl rfl rfl hheir rfl rfl rfl

end Desks

end BracketTemplate
