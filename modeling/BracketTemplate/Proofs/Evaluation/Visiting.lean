import Mathlib
import BracketTemplate.Proofs.Evaluation.Requests

/-!
# The states of an evaluation

An evaluation goes from state to state, a state being that of the machine and the scene: the machine
takes a step, or the host answers what it asks for.  `Scene.Visits` are the states that the
evaluation of a template comes to, however long it takes; where it ends, and where it is given up,
is one of them (`Scene.exists_visits_evaluateWith`).

A page that is included is evaluated in turn, and `Scene.Evaluates` are the evaluations that an
evaluation consists of in this sense: itself, and those of the pages that are included in it at any
depth.
-/

namespace BracketTemplate

variable {σ : Type}

namespace Scene

open Script (Machine Request)

/-- The state after one, unless the evaluation has come to its end. -/
def advance (includePage : String → Scene σ → Scene σ) (program : Program) :
    Machine × Scene σ → Option (Machine × Scene σ)
  | (m, s) =>
    match m.step with
    | .next m => some (m, s)
    | .ask request next =>
      let (a, s) := s.answer includePage program request
      some (next a, s)
    | .done .. => none

/-- One state comes after another, at once or later. -/
def Leads (includePage : String → Scene σ → Scene σ) (program : Program) :
    Machine × Scene σ → Machine × Scene σ → Prop :=
  Relation.ReflTransGen fun a b => advance includePage program a = some b

/-- The state that the evaluation of a template starts in, if it has any. -/
def start (t : Template) (s : Scene σ) : Option (Machine × Scene σ) :=
  match t.evaluator, t.program.chunk t.name with
  | .script, .ok chunk =>
    let s := s.onEnv (·.enter t)
    some (s.machine t.program chunk, s)
  | _, _ => none

/-- The evaluation of a template comes to a state; includes may be nested so deeply in it. -/
def Visits (depth : Nat) (t : Template) (s : Scene σ) (m : Machine) (s' : Scene σ) : Prop :=
  ∃ a, start t s = some a ∧ Leads (includePageWithin depth) t.program a (m, s')

/-- An evaluation consists of itself, and of what those consist of that its includes start. -/
inductive Evaluates : Nat → Template → Scene σ → Nat → Template → Scene σ → Prop
  | itself (depth : Nat) (t : Template) (s : Scene σ) : Evaluates depth t s depth t s
  | included {depth inner : Nat} {t u v : Template} {s s' s'' : Scene σ} {m : Machine}
      {name : String} {next : (Request.includePage name).Answer → Machine} {env : Environment σ}
      {world : World σ} (hvisits : Visits (depth + 1) t s m s')
      (hasks : m.step = .ask (.includePage name) next)
      (hpage : s'.pageWithin name = (.ok (u, env), world))
      (hinner : Evaluates depth u ⟨env, world⟩ inner v s'') : Evaluates (depth + 1) t s inner v s''

variable {includePage : String → Scene σ → Scene σ} {program : Program} {s s' : Scene σ}
  {m : Machine}

/-! ## Where an evaluation stops -/

lemma advance_next {m' : Machine} (h : m.step = .next m') :
    advance includePage program (m, s) = some (m', s) := by
  rw [advance, h]

lemma advance_ask {r : Request} {next : r.Answer → Machine} (h : m.step = .ask r next) :
    advance includePage program (m, s) =
      some (next (s.answer includePage program r).1, (s.answer includePage program r).2) := by
  rw [advance, h]

/-- A machine that asks for something has come to a state that does. -/
lemma exists_leads_ask (includePage : String → Scene σ → Scene σ) (program : Program) (s : Scene σ)
    {fuel : Nat} {r : Request} {next : r.Answer → Machine} (h : m.run fuel = .ask r next) :
    ∃ m', Leads includePage program (m, s) (m', s) ∧ m'.step = .ask r next := by
  induction fuel generalizing m with
  | zero => cases h
  | succ fuel ih =>
    unfold Machine.run at h
    split at h
    · next m' hstep =>
      obtain ⟨m'', hleads, hasks⟩ := ih h
      exact ⟨m'', .head (advance_next hstep) hleads, hasks⟩
    · next r' next' hstep =>
      cases h
      exact ⟨m, .refl, hstep⟩
    · cases h

/-- The scene that a script stops with is that of a state that it comes to. -/
lemma exists_leads_drive (fuel steps : Nat) (m : Machine) (s : Scene σ) :
    ∃ m', Leads includePage program (m, s)
      (m', (drive includePage program fuel (m.run steps) s).2) := by
  induction fuel generalizing steps m s with
  | zero => cases m.run steps <;> exact ⟨m, .refl⟩
  | succ fuel ih =>
    cases hrun : m.run steps with
    | done | exhausted => exact ⟨m, .refl⟩
    | ask r next =>
      obtain ⟨m', hleads, hasks⟩ := exists_leads_ask includePage program s hrun
      obtain ⟨m'', hgoes⟩ := ih maxSteps (next (s.answer includePage program r).1)
        (s.answer includePage program r).2
      exact ⟨m'', hleads.trans (.head (advance_ask hasks) hgoes)⟩

/-- **The scene that an evaluation stops with** is that of a state that it comes to, or the one it
started with; what has been marked as running on the way is so no longer. -/
theorem exists_visits_evaluateWith (depth : Nat) (t : Template) (s : Scene σ) :
    ∃ s', (s' = s ∨ ∃ m, Visits depth t s m s') ∧
      (evaluateWith (includePageWithin depth) t s).2 =
        s'.onEnv fun env => { env with running := s.env.running } := by
  unfold evaluateWith
  cases hevaluator : t.evaluator with
  | idle => exact ⟨s, .inl rfl, rfl⟩
  | script =>
    dsimp only
    unfold runProgram
    split
    · exact ⟨s, .inl rfl, rfl⟩
    · next chunk hchunk =>
      obtain ⟨m, hleads⟩ : ∃ m, Leads (includePageWithin depth) t.program _ (m, _) :=
        exists_leads_drive maxSteps maxSteps ((s.onEnv (·.enter t)).machine t.program chunk)
          (s.onEnv (·.enter t))
      have hstart : start t s =
          some ((s.onEnv (·.enter t)).machine t.program chunk, s.onEnv (·.enter t)) := by
        rw [start, hevaluator, hchunk]
      refine ⟨_, .inr ⟨m, _, hstart, hleads⟩, ?_⟩
      split <;> next hafter => rw [hafter]

end Scene

end BracketTemplate
