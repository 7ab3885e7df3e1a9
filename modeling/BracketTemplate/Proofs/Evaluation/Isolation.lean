import Mathlib
import BracketTemplate.Proofs.Evaluation.Reentry

/-!
# Included pages are isolated

A page is included in three steps: it is found, its file is entered, and its template is evaluated
in an environment derived from that of the including page.  Each step can fail, and then a mark is
all that the including page gets.  `Scene.Shows` are the includes where no step fails, with the
output of the page, and `Scene.Fails` are the others, by the step that fails.  These are all
includes, and none is both; and whatever happens in the derived environment, that of the including
page is the same afterwards but for the text at the end of its output (`Scene.include_isolated`).
-/

namespace BracketTemplate

variable {σ : Type}

/-- The environment for a page that is included, with its file on the chain if it has one. -/
def Environment.deriveFor (file : Option Path) (env : Environment σ) : Environment σ :=
  { env.derive with including := env.including ++ file.toList }

namespace Scene

/-- The template that a page is found to have, its file, and the world afterwards. -/
inductive Finds (s : Scene σ) (name : String) : Template → Option Path → World σ → Prop
  | cached {c : Cache} {t : Template} {world : World σ} (hroute : s.env.hasCache = true)
      (hcache : s.world.cache = some c) (hfree : s.world.cacheHeld = false)
      (hpage : s.world.page c name = (.ok (some t), world)) : Finds s name t t.paths.head? world
  | compiled {root file : Path} {t : Template} (hroute : s.env.hasCache = false)
      (hfile : s.pageFile name = .ok (root, file))
      (hcompile : Template.ofFile ((s.env.running.map (·.evaluator)).getD .script) s.world.files
        s.world.made file (some root) = .ok t) : Finds s name t (some file) s.world.withTemplate

/-- A page is not found: the cache is missing or held, it fails or has no such page; or, without a
cache, the name stands for no file, or the file cannot be read and compiled. -/
inductive Lacks (s : Scene σ) (name : String) : Prop
  | uncached (hroute : s.env.hasCache = true) (hcache : s.world.cache = none)
  | held (hroute : s.env.hasCache = true) (hheld : s.world.cacheHeld = true)
  | absent {c : Cache} {world : World σ} (hroute : s.env.hasCache = true)
      (hcache : s.world.cache = some c) (hpage : s.world.page c name = (.ok none, world))
  | refused {c : Cache} {e : TemplateError} {world : World σ} (hroute : s.env.hasCache = true)
      (hcache : s.world.cache = some c) (hpage : s.world.page c name = (.error e, world))
  | unresolved {e : TemplateError} (hroute : s.env.hasCache = false)
      (hfile : s.pageFile name = .error e)
  | uncompiled {root file : Path} {e : TemplateError} (hroute : s.env.hasCache = false)
      (hfile : s.pageFile name = .ok (root, file))
      (hcompile : Template.ofFile ((s.env.running.map (·.evaluator)).getD .script) s.world.files
        s.world.made file (some root) = .error e)

/-- A file is being included already. -/
def Reenters (s : Scene σ) (file : Option Path) : Prop :=
  ∃ p ∈ file, s.env.including.any (·.same p) = true

/-- Includes in which no step fails, with the whole output that the page has in its environment. -/
inductive Shows (s : Scene σ) (name : String) : Nat → String → Prop
  | mk {depth : Nat} {t : Template} {file : Option Path} {world : World σ} {after : Scene σ}
      (hfinds : s.Finds name t file world) (hfree : ¬ s.Reenters file)
      (hruns : evaluateWith (includePageWithin depth) t ⟨s.env.deriveFor file, world⟩ =
        (.ok (), after)) : Shows s name (depth + 1) after.env.output

/-- Includes in which a step fails. -/
inductive Fails (s : Scene σ) (name : String) : Nat → Prop
  | nesting : Fails s name 0
  | finding {depth : Nat} (h : s.Lacks name) : Fails s name (depth + 1)
  | entering {depth : Nat} {t : Template} {file : Option Path} {world : World σ}
      (hfinds : s.Finds name t file world) (hentered : s.Reenters file) : Fails s name (depth + 1)
  | executing {depth : Nat} {t : Template} {file : Option Path} {world : World σ}
      {e : TemplateError} {after : Scene σ} (hfinds : s.Finds name t file world)
      (hfree : ¬ s.Reenters file)
      (hruns : evaluateWith (includePageWithin depth) t ⟨s.env.deriveFor file, world⟩ =
        (.error e, after)) : Fails s name (depth + 1)

variable {s : Scene σ} {name : String} {t : Template} {file : Option Path} {world : World σ}

/-! ## Finding a page -/

/-- A page is found in one way at most. -/
lemma Finds.unique {t' : Template} {file' : Option Path} {world' : World σ}
    (h : s.Finds name t file world) (k : s.Finds name t' file' world') :
    t' = t ∧ file' = file ∧ world' = world := by
  cases h <;> cases k <;> simp_all

lemma Finds.not_lacks (h : s.Finds name t file world) : ¬ s.Lacks name := by
  rintro k
  cases h <;> cases k <;> simp_all

/-- Every page is found or lacking. -/
lemma finds_or_lacks (s : Scene σ) (name : String) :
    (∃ t file world, s.Finds name t file world) ∨ s.Lacks name := by
  rcases hroute : s.env.hasCache with _ | _
  · rcases hfile : s.pageFile name with e | ⟨root, file⟩
    · exact .inr (.unresolved hroute hfile)
    rcases hcompile : Template.ofFile ((s.env.running.map (·.evaluator)).getD .script) s.world.files
      s.world.made file (some root) with e | t
    · exact .inr (.uncompiled hroute hfile hcompile)
    · exact .inl ⟨t, some file, _, .compiled hroute hfile hcompile⟩
  · rcases hcache : s.world.cache with _ | c
    · exact .inr (.uncached hroute hcache)
    rcases hheld : s.world.cacheHeld with _ | _
    rotate_left
    · exact .inr (.held hroute hheld)
    rcases hpage : s.world.page c name with ⟨e | _ | t, world⟩
    · exact .inr (.refused hroute hcache hpage)
    · exact .inr (.absent hroute hcache hpage)
    · exact .inl ⟨t, _, world, .cached hroute hcache hheld hpage⟩

/-- A page that is not found is refused. -/
lemma Lacks.pageWithin (h : s.Lacks name) : ∃ e world, s.pageWithin name = (.error e, world) := by
  unfold Scene.pageWithin pageFromCache
  cases h with
  | uncached hroute hcache =>
    rw [if_pos hroute, hcache]
    exact ⟨_, _, rfl⟩
  | held hroute hheld =>
    rw [if_pos hroute, hheld]
    cases s.world.cache <;> exact ⟨_, _, rfl⟩
  | absent hroute hcache hpage | refused hroute hcache hpage =>
    rw [if_pos hroute, hcache]
    cases s.world.cacheHeld with
    | true => exact ⟨_, _, rfl⟩
    | false =>
      simp only [hpage]
      exact ⟨_, _, rfl⟩
  | @unresolved e hroute hfile =>
    rw [if_neg (by simp [hroute])]
    exact ⟨e, _, congrArg (·, s.world.withTemplate) (Source.bind_eq_error.2 (.inl hfile))⟩
  | @uncompiled root file e hroute hfile hcompile =>
    rw [if_neg (by simp [hroute])]
    -- the file is entered before it is compiled, and either may be what fails
    rcases henter : enterInclude s.env.derive file with e' | env
    · exact ⟨e', _, congrArg (·, s.world.withTemplate)
        (Source.bind_eq_error.2 (.inr ⟨_, hfile, Source.bind_eq_error.2 (.inl henter)⟩))⟩
    · refine ⟨e, _, congrArg (·, s.world.withTemplate)
        (Source.bind_eq_error.2 (.inr ⟨_, hfile, Source.bind_eq_error.2 (.inr ⟨_, henter, ?_⟩)⟩))⟩
      exact Source.bind_eq_error.2 (.inl hcompile)

/-! ## Entering a page -/

/-- Enters the file of a page, if it has one. -/
def enterPage (env : Environment σ) : Option Path → Except TemplateError (Environment σ)
  | none => .ok env
  | some file => enterInclude env file

/-- A page that is found is what is included, if its file can be entered. -/
lemma Finds.pageWithin (h : s.Finds name t file world) :
    s.pageWithin name = ((enterPage s.env.derive file).map (t, ·), world) := by
  unfold Scene.pageWithin
  cases h with
  | cached hroute hcache hheld hpage =>
    have hfromCache : s.pageFromCache name = (.ok t, world) := by
      rw [pageFromCache, hcache, hheld]
      simp only [hpage]
    rw [if_pos hroute, hfromCache]
    dsimp only
    cases t.paths <;> rfl
  | @compiled root file t hroute hfile hcompile =>
    rw [if_neg (by simp [hroute])]
    refine congrArg (·, s.world.withTemplate) ?_
    rw [show enterPage s.env.derive (some file) = enterInclude s.env.derive file from rfl]
    rcases henter : enterInclude s.env.derive file with e | env
    · exact Source.bind_eq_error.2 (.inr ⟨_, hfile, Source.bind_eq_error.2 (.inl henter)⟩)
    · exact Source.bind_eq_ok.2 ⟨_, hfile, Source.bind_eq_ok.2 ⟨env, henter,
        Source.bind_eq_ok.2 ⟨t, hcompile, rfl⟩⟩⟩

lemma enterPage_free (h : ¬ s.Reenters file) :
    enterPage s.env.derive file = .ok (s.env.deriveFor file) := by
  cases file with
  | none => simp [enterPage, Environment.deriveFor, Environment.derive]
  | some p => exact if_neg fun hany => h ⟨p, rfl, hany⟩

lemma enterPage_reenters (h : s.Reenters file) : ∃ e, enterPage s.env.derive file = .error e := by
  obtain ⟨p, rfl, hany⟩ := h
  exact enterInclude_eq_error s.env.derive hany

/-- The environment for a page is derived from that of the including page. -/
lemma exists_deriveFor {env : Environment σ} (h : s.pageWithin name = (.ok (t, env), world)) :
    ∃ file, env = s.env.deriveFor file := by
  rcases s.finds_or_lacks name with ⟨t', file, world', hfinds⟩ | hlacks
  · rw [hfinds.pageWithin] at h
    by_cases hentered : s.Reenters file
    · obtain ⟨e, herror⟩ := enterPage_reenters hentered
      rw [herror] at h
      cases h
    · rw [enterPage_free hentered] at h
      cases h
      exact ⟨file, rfl⟩
  · obtain ⟨e, world', herror⟩ := hlacks.pageWithin
    rw [herror] at h
    cases h

/-! ## Including a page -/

variable {depth : Nat} {text : String}

/-- An include in which no step fails writes the output of the page. -/
lemma Shows.includePageWithin (h : s.Shows name depth text) :
    (s.includePageWithin depth name).env = s.env.writeRaw text := by
  obtain ⟨hfinds, hfree, hruns⟩ := h
  rw [Scene.includePageWithin, includeWith, pageOutput, hfinds.pageWithin, enterPage_free hfree]
  simp only [Except.map, hruns]

/-- An include in which a step fails writes the mark. -/
lemma Fails.includePageWithin (h : s.Fails name depth) :
    (s.includePageWithin depth name).env = s.env.writeEscaped (includeMark name) := by
  cases h with
  | nesting =>
    rw [Scene.includePageWithin]
    rfl
  | finding h =>
    obtain ⟨e, world, hpage⟩ := h.pageWithin
    exact includePageWithin_refused hpage _
  | entering hfinds hentered =>
    obtain ⟨e, herror⟩ := enterPage_reenters hentered
    have hpage := hfinds.pageWithin
    rw [herror] at hpage
    exact includePageWithin_refused hpage _
  | executing hfinds hfree hruns =>
    rw [Scene.includePageWithin, includeWith, pageOutput, hfinds.pageWithin, enterPage_free hfree]
    simp only [Except.map, hruns]

/-- In an include no step fails, or one does. -/
lemma shows_or_fails (s : Scene σ) (name : String) (depth : Nat) :
    (∃ text, s.Shows name depth text) ∨ s.Fails name depth := by
  cases depth with
  | zero => exact .inr .nesting
  | succ depth =>
    rcases s.finds_or_lacks name with ⟨t, file, world, hfinds⟩ | hlacks
    rotate_left
    · exact .inr (.finding hlacks)
    by_cases hfree : s.Reenters file
    · exact .inr (.entering hfinds hfree)
    rcases hruns : evaluateWith (Scene.includePageWithin depth) t ⟨s.env.deriveFor file, world⟩ with
      ⟨e | _, after⟩
    · exact .inr (.executing hfinds hfree hruns)
    · exact .inl ⟨_, .mk hfinds hfree hruns⟩

/-- No step fails in an include that shows its page. -/
lemma Shows.not_fails (h : s.Shows name depth text) : ¬ s.Fails name depth := by
  obtain ⟨hfinds, hfree, hruns⟩ := h
  rintro (_ | hlacks | ⟨hfinds', hentered⟩ | ⟨hfinds', -, hruns'⟩)
  · exact hfinds.not_lacks hlacks
  · obtain ⟨-, rfl, -⟩ := hfinds.unique hfinds'
    exact hfree hentered
  · obtain ⟨rfl, rfl, rfl⟩ := hfinds.unique hfinds'
    rw [hruns] at hruns'
    cases hruns'

/-- **Included pages are isolated.**  However deeply an include is nested and whatever the page
does, the environment of the including page is what it was, but for a text at the end of the output.
When the page is found and entered and its evaluation, in an environment derived from that of the
including page, ends well, the text is the whole output of the page.  When any of this fails the
text is the mark, escaped, and nothing else.  Of the two exactly one is the case. -/
theorem include_isolated (s : Scene σ) (name : String) (depth : Nat) :
    ∃ text, (s.includePageWithin depth name).env = { s.env with output := s.env.output ++ text } ∧
      (s.Shows name depth text ∧ ¬ s.Fails name depth ∨
        (∀ shown, ¬ s.Shows name depth shown) ∧ s.Fails name depth ∧
          text = s.env.escape (includeMark name)) := by
  rcases s.shows_or_fails name depth with ⟨text, hshows⟩ | hfails
  · exact ⟨text, hshows.includePageWithin, .inl ⟨hshows, hshows.not_fails⟩⟩
  · exact ⟨_, hfails.includePageWithin,
      .inr ⟨fun _ hshows => hshows.not_fails hfails, hfails, rfl⟩⟩

/-- A scene with a page that writes twice and then fails. -/
def breaking : Scene Unit where
  env := { (default : Environment Unit) with
    output := "before", escape := ("<" ++ · ++ ">"), rootdir := some (.ofString "/w") }
  world :=
    { files :=
        { entries := [([['w']], .directory),
            ([['w'], ['p']], .file (Utf8.encode "x[print('y')][error('z')]".toList) 0)]
          cwd := [] }
      now := 0
      state := () }

/-- All that the page leaves is the mark. -/
example : (breaking.includePage "p").env.output =
    "before<[dynamic include of 'p' failed]>" := by
  decide +kernel

end Scene

end BracketTemplate
