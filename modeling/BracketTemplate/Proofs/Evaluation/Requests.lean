import Mathlib
import BracketTemplate.Environment.Evaluation
import BracketTemplate.Proofs.Cache.Rooted

/-!
# What requests leave alone

An evaluation goes from request to request: `Scene.goOn` answers one, and what drives a script does
nothing else (`Scene.drive_goOn`).  However far it has gone, the chain of files that are being
included is the one it started with, it includes pages by the same route, and a root that it has set
is one that its program sets (`Scene.kept_goOn`).  An include writes to the output of the including
page and changes nothing else of its environment.

A cache in the world, whatever is got from it in the course of an evaluation and of those nested in
it, keeps to absolute paths (`Scene.rooted_includePageWithin`).
-/

namespace BracketTemplate

variable {σ : Type}

/-- A page is included by writing something, and by nothing else that the environment would show. -/
def Includer (includePage : String → Scene σ → Scene σ) : Prop :=
  ∀ name s, ∃ text, (includePage name s).env = s.env.writeRaw text

/-- What stays of an environment in which a program runs, and what its root can become. -/
structure Environment.Kept (program : Program) (before after : Environment σ) : Prop where
  including : after.including = before.including
  hasCache : after.hasCache = before.hasCache
  rootdir : after.rootdir = before.rootdir ∨
    ∃ dir, .rootdir dir ∈ program ∧ after.rootdir = some dir

namespace Environment

variable {program : Program} {before between after : Environment σ}

lemma Kept.refl (program : Program) (env : Environment σ) : Kept program env env :=
  ⟨rfl, rfl, .inl rfl⟩

lemma Kept.trans (h : Kept program before between) (k : Kept program between after) :
    Kept program before after := by
  refine ⟨k.including.trans h.including, k.hasCache.trans h.hasCache, ?_⟩
  rcases k.rootdir with hsame | hset
  · rw [hsame]
    exact h.rootdir
  · exact .inr hset

lemma kept_set {name : String} {value : Value} (h : before.set name value = .ok after) :
    Kept program before after := by
  obtain ⟨_, -, h⟩ := Source.bind_eq_ok.1 h
  cases h
  exact ⟨rfl, rfl, .inl rfl⟩

lemma kept_call (env : Environment σ) (name : String) (args : List Value) (state : σ) :
    Kept program env (env.call name args state).2.1 := by
  unfold call
  split
  · exact .refl _ _
  split
  · exact .refl _ _
  dsimp only
  split
  · exact .refl _ _
  split <;> exact ⟨rfl, rfl, .inl rfl⟩

end Environment

namespace Scene

open Environment (Kept)

variable {includePage : String → Scene σ → Scene σ} {program : Program}

/-! ## Requests -/

lemma kept_perform (s : Scene σ) (kind : Script.InstructionKind) (index : Nat) :
    Kept program s.env (s.perform program kind index).2.env := by
  unfold perform
  split
  · exact ⟨rfl, rfl, .inl rfl⟩
  · next dir hinstruction =>
    exact ⟨rfl, rfl, .inr ⟨dir, List.mem_of_getElem? hinstruction, rfl⟩⟩
  · exact ⟨rfl, rfl, .inl rfl⟩
  · exact .refl _ _

/-- **No request changes the chain of files that are being included**, or the way in which pages
are. -/
theorem kept_answer (hinclude : Includer includePage) (s : Scene σ) (r : Script.Request) :
    Kept program s.env (s.answer includePage program r).2.env := by
  cases r with
  | write raw text =>
    cases raw <;> exact ⟨rfl, rfl, .inl rfl⟩
  | instruction kind index => exact s.kept_perform kind index
  | includePage name =>
    obtain ⟨text, htext⟩ := hinclude name s
    have henv : (s.answer includePage program (.includePage name)).2.env =
        s.env.writeRaw text := htext
    rw [henv]
    exact ⟨rfl, rfl, .inl rfl⟩
  | bind name value =>
    show Kept program s.env (s.bind name value).2.env
    unfold bind
    split
    · next env hset => exact Environment.kept_set hset
    · exact .refl _ _
  | invoke name args => exact Environment.kept_call _ _ _ _
  | openFile path mode => cases mode <;> exact .refl _ _
  | rootdir | workdir | binding | readFile | writeFile | console | now => exact .refl _ _

/-! ## Going on -/

/-- Answers the request that a script has stopped at, if there is one, and goes on. -/
def goOn (includePage : String → Scene σ → Scene σ) (program : Program) :
    Script.Machine.Pause × Scene σ → Script.Machine.Pause × Scene σ
  | (.ask request next, s) =>
    let (a, s) := s.answer includePage program request
    ((next a).run maxSteps, s)
  | other => other

/-- Driving a script is going on with it. -/
lemma drive_goOn (fuel : Nat) (at' : Script.Machine.Pause × Scene σ) :
    drive includePage program (fuel + 1) at'.1 at'.2 =
      drive includePage program fuel (goOn includePage program at').1
        (goOn includePage program at').2 := by
  obtain ⟨pause, s⟩ := at'
  cases pause with
  | ask request next => rfl
  | done result heap => cases fuel <;> rfl
  | exhausted => cases fuel <;> rfl

/-- What each answer keeps, an evaluation keeps, however far it has gone. -/
lemma goOn_induction {motive : Scene σ → Prop}
    (hanswer : ∀ s r, motive s → motive (s.answer includePage program r).2)
    (at' : Script.Machine.Pause × Scene σ) (h : motive at'.2) (n : Nat) :
    motive ((goOn includePage program)^[n] at').2 := by
  induction n with
  | zero => exact h
  | succ n ih =>
    rw [Function.iterate_succ_apply']
    generalize (goOn includePage program)^[n] at' = reached at ih
    obtain ⟨pause, s⟩ := reached
    cases pause with
    | ask request next => exact hanswer s request ih
    | done | exhausted => exact ih

/-- **An evaluation keeps the chain of files that are being included.** -/
theorem kept_goOn (program : Program) (hinclude : Includer includePage)
    (at' : Script.Machine.Pause × Scene σ) (n : Nat) :
    Kept program at'.2.env ((goOn includePage program)^[n] at').2.env :=
  goOn_induction (motive := fun s => Kept program at'.2.env s.env)
    (fun s r hkept => hkept.trans (s.kept_answer hinclude r)) at' (.refl _ _) n

/-! ## Includes -/

lemma includer_includeWith
    (evaluate : Template → Scene σ → Except TemplateError Unit × Scene σ) :
    Includer (includeWith evaluate) := by
  intro name s
  unfold includeWith
  split
  · exact ⟨_, rfl⟩
  · exact ⟨_, rfl⟩

/-- **Including a page writes something**, whatever the page does. -/
theorem includer_includePageWithin (depth : Nat) :
    Includer (includePageWithin (σ := σ) depth) := by
  intro name s
  cases depth with
  | zero =>
    rw [includePageWithin]
    exact ⟨_, rfl⟩
  | succ depth =>
    rw [includePageWithin]
    exact includer_includeWith _ name s

/-- A file is entered when it is not on the chain, and is its last then. -/
lemma enterInclude_eq_ok {env after : Environment σ} {file : Path} :
    enterInclude env file = .ok after ↔ env.including.any (·.same file) = false ∧
      after = { env with including := env.including ++ [file] } := by
  constructor
  · intro h
    unfold enterInclude at h
    split at h
    · cases h
    · next hfree =>
      cases h
      exact ⟨by simpa using hfree, rfl⟩
  · rintro ⟨hfree, rfl⟩
    unfold enterInclude
    rw [if_neg (by simp [hfree])]

/-- A file that is on the chain is not entered. -/
lemma enterInclude_eq_error (env : Environment σ) {file : Path}
    (h : env.including.any (·.same file) = true) : ∃ e, enterInclude env file = .error e := by
  unfold enterInclude
  rw [if_pos h]
  exact ⟨_, rfl⟩

/-- The file of a page lies within the root. -/
lemma pageFile_eq_ok {s : Scene σ} {name : String} {root file : Path}
    (h : s.pageFile name = .ok (root, file)) :
    root = s.env.rootdir.getD s.world.files.cwdPath ∧ file.startsWith root = true := by
  obtain ⟨found, hresolve, h⟩ := Source.bind_eq_ok.1 h
  cases h
  obtain ⟨_, -, hresolve⟩ := Source.bind_eq_ok.1 hresolve
  obtain ⟨_, hwithin, hresolve⟩ := Source.bind_eq_ok.1 hresolve
  cases hresolve
  exact ⟨rfl, Path.ensureWithin_eq_ok.1 hwithin⟩

/-- For a page that is refused a mark is written, however deeply includes may still be nested. -/
lemma includePageWithin_refused {s : Scene σ} {name : String} {e : TemplateError} {world : World σ}
    (h : s.pageWithin name = (.error e, world)) (depth : Nat) :
    (s.includePageWithin depth name).env = s.env.writeEscaped (includeMark name) := by
  cases depth with
  | zero =>
    rw [includePageWithin]
    rfl
  | succ depth => rw [includePageWithin, includeWith, pageOutput, h]

end Scene

/-! ## Caches in the world -/

/-- The cache of the world, if there is one, keeps to absolute paths. -/
def World.Rooted (w : World σ) : Prop := ∀ c, w.cache = some c → c.Rooted

namespace Scene

variable {includePage : String → Scene σ → Scene σ} {program : Program}

lemma rooted_change {w : World σ} (h : w.Rooted) (result : Except FileFault FileTree) :
    (w.change result).2.Rooted := by
  cases result <;> exact h

lemma rooted_answer (program : Program)
    (hinclude : ∀ name s, s.world.Rooted → (includePage name s).world.Rooted) (s : Scene σ)
    (r : Script.Request) (h : s.world.Rooted) :
    (s.answer includePage program r).2.world.Rooted := by
  cases r with
  | includePage name => exact hinclude name s h
  | instruction kind index =>
    show (s.perform program kind index).2.world.Rooted
    unfold perform
    split <;> exact h
  | bind name value =>
    show (s.bind name value).2.world.Rooted
    unfold bind
    split <;> exact h
  | openFile path mode =>
    cases mode with
    | read | update => exact h
    | truncate | append => exact rooted_change h _
  | writeFile path position content => exact rooted_change h _
  | write | rootdir | workdir | binding | invoke | readFile | console | now => exact h

lemma rooted_drive (program : Program)
    (hinclude : ∀ name s, s.world.Rooted → (includePage name s).world.Rooted) (fuel : Nat)
    (pause : Script.Machine.Pause) {s : Scene σ} (h : s.world.Rooted) :
    (drive includePage program fuel pause s).2.world.Rooted := by
  induction fuel generalizing pause s with
  | zero => cases pause <;> exact h
  | succ fuel ih =>
    cases pause with
    | ask request next => exact ih _ (rooted_answer program hinclude s request h)
    | done | exhausted => exact h

lemma rooted_evaluateWith
    (hinclude : ∀ name s, s.world.Rooted → (includePage name s).world.Rooted) (t : Template)
    {s : Scene σ} (h : s.world.Rooted) : (evaluateWith includePage t s).2.world.Rooted := by
  unfold evaluateWith runProgram
  split
  · exact h
  · dsimp only
    split
    · exact h
    · next chunk hchunk =>
      have hdrive := rooted_drive t.program hinclude maxSteps
        (((s.onEnv (·.enter t)).machine t.program chunk).run maxSteps) (s := s.onEnv (·.enter t)) h
      split
      · next after hresult =>
        rw [hresult] at hdrive
        exact hdrive
      · next after hresult =>
        rw [hresult] at hdrive
        exact hdrive

/-- Looking a page up in the cache gives one whose file is absolute. -/
lemma rooted_pageFromCache {s : Scene σ} (h : s.world.Rooted) (name : String) :
    (s.pageFromCache name).2.Rooted ∧ ∀ t, (s.pageFromCache name).1 = .ok t →
      ∃ file, t.paths.head? = some file ∧ file.isAbsolute = true := by
  unfold pageFromCache
  split
  · next c hcache _ =>
    have hget := (h c hcache).get s.world.occasion name
    have hworld : (s.world.page c name).2.Rooted := fun _ hafter =>
      Option.some.inj hafter ▸ hget.1
    have hresult : (s.world.page c name).1 = (c.get s.world.occasion name).1 := rfl
    rcases hpage : s.world.page c name with ⟨e | _ | t, world⟩ <;> rw [hpage] at hworld hresult
    · exact ⟨hworld, fun t ht => by cases ht⟩
    · exact ⟨hworld, fun t ht => by cases ht⟩
    · refine ⟨hworld, fun t' ht => ?_⟩
      cases ht
      exact hget.2 t hresult.symm
  · exact ⟨h, fun t ht => by cases ht⟩

lemma rooted_pageWithin {s : Scene σ} (h : s.world.Rooted) (name : String) :
    (s.pageWithin name).2.Rooted := by
  have hcache := (rooted_pageFromCache h name).1
  unfold pageWithin
  split
  · split
    · next hpage =>
      rw [hpage] at hcache
      exact hcache
    · next hpage =>
      rw [hpage] at hcache
      split <;> exact hcache
  · exact h

/-- **Nested evaluations keep the cache to absolute paths.** -/
theorem rooted_includePageWithin (depth : Nat) (name : String) (s : Scene σ)
    (h : s.world.Rooted) : (includePageWithin depth name s).world.Rooted := by
  induction depth generalizing name s with
  | zero =>
    rw [includePageWithin]
    exact h
  | succ depth ih =>
    have hpage := rooted_pageWithin h name
    rw [includePageWithin, includeWith]
    unfold pageOutput
    rcases hresult : s.pageWithin name with ⟨e | ⟨t, env⟩, world⟩ <;> rw [hresult] at hpage
    · exact hpage
    · have hafter := rooted_evaluateWith ih t (s := ⟨env, world⟩) hpage
      dsimp only
      rcases heval : evaluateWith (includePageWithin depth) t ⟨env, world⟩ with ⟨e | _, after⟩ <;>
        rw [heval] at hafter <;> exact hafter

end Scene

end BracketTemplate
