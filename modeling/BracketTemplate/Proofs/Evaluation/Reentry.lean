import Mathlib
import BracketTemplate.Proofs.Evaluation.Requests

/-!
# A file is not included while it is being included

Templates include pages, which are templates that include pages.  `Scene.Nested` is the chain of
files whose evaluation has been started by an include and is still going on, from some include on,
together with the scene that the next include finds.  All files of such a chain are distinct, and a
page whose file is on the chain gets the mark of a failed include (`Scene.nested_apart`).

What is compared is the path under which an include has found its file.  So long as that is
absolute, as it is when pages come from a cache or when the root of the environment is absolute or
has not been set, it is the same for every way to the file.  A root that has been set to a relative
path is another matter: the first page is found by a relative path and sets an absolute root, by
which it is then found a second time (`Scene.includePage_twice`).
-/

namespace BracketTemplate

variable {σ : Type}

namespace Scene

/-- The page that an evaluation is about to include when it has made so many requests, and the scene
in which it does. -/
def includeAt (includePage : String → Scene σ → Scene σ) (t : Template) (s : Scene σ) (n : Nat) :
    Option (String × Scene σ) :=
  match t.evaluator, t.program.chunk t.name with
  | .script, .ok chunk =>
    let s := s.onEnv (·.enter t)
    match (goOn includePage t.program)^[n] ((s.machine t.program chunk).run maxSteps, s) with
    | (.ask (.includePage name) _, s) => some (name, s)
    | _ => none
  | _, _ => none

/-- Includes nested in one another, `most` of them at most: the files whose evaluation they have
started, the number of includes that may still be nested, and the page that is included now in its
scene. -/
inductive Nested (outer : Scene σ) (most : Nat) : List Path → Nat → String → Scene σ → Prop
  | outermost (name : String) : Nested outer most [] most name outer
  | inner {chain : List Path} {depth n : Nat} {name name' : String} {s s' : Scene σ} {t : Template}
      {env : Environment σ} {world : World σ} (h : Nested outer most chain (depth + 1) name s)
      (hpage : s.pageWithin name = (.ok (t, env), world))
      (hcomes : includeAt (includePageWithin depth) t ⟨env, world⟩ n = some (name', s')) :
      Nested outer most (chain ++ t.paths.head?.toList) depth name' s'

/-- Pages are included through a cache, or the root is absolute or has not been set. -/
def Located (env : Environment σ) : Prop :=
  env.hasCache = true ∨ ∀ dir ∈ env.rootdir, dir.isAbsolute = true

/-! ## Entering a page -/

/-- The file of a page lies at an absolute path, when the root does. -/
lemma isAbsolute_pageFile {s : Scene σ} (hroot : ∀ dir ∈ s.env.rootdir, dir.isAbsolute = true)
    {name : String} {root file : Path} (h : s.pageFile name = .ok (root, file)) :
    file.isAbsolute = true := by
  obtain ⟨rfl, hwithin⟩ := pageFile_eq_ok h
  refine Path.isAbsolute_of_startsWith hwithin ?_
  cases hdir : s.env.rootdir with
  | none => exact Source.isAbsolute_cwdPath _
  | some dir => exact hroot dir hdir

/-- How a page is entered: its template knows its file by an absolute path, and the include has
found it by a path with the same components. -/
structure Entry (s : Scene σ) (name : String) (t : Template) (env : Environment σ)
    (file found : Path) : Prop where
  head : t.paths.head? = some file
  absolute : file.isAbsolute = true
  components : found.components = file.components
  free : s.env.including.any (·.same found) = false
  env_eq : env = { s.env.derive with including := s.env.including ++ [found] }
  /-- Without a cache, a root that the page sets is absolute. -/
  roots : s.env.hasCache = false → ∀ dir, .rootdir dir ∈ t.program → dir.isAbsolute = true
  /-- With that path on the chain, the page would have been refused. -/
  again : ∀ chain : List Path, chain.any (·.same found) = true → ∃ e world,
    pageWithin ⟨{ s.env with including := chain }, s.world⟩ name = (.error e, world)

/-- **Pages are entered by absolute paths.** -/
lemma pageWithin_eq_ok {s : Scene σ} (hlocated : Located s.env) (hrooted : s.world.Rooted)
    {name : String} {t : Template} {env : Environment σ} {world : World σ}
    (h : s.pageWithin name = (.ok (t, env), world)) :
    ∃ file found, Entry s name t env file found := by
  unfold pageWithin at h
  rcases hcache : s.env.hasCache with _ | _ <;> rw [hcache] at h
  · have hroot : ∀ dir ∈ s.env.rootdir, dir.isAbsolute = true := by
      rcases hlocated with hlocated | hroot
      · rw [hlocated] at hcache
        cases hcache
      · exact hroot
    obtain ⟨hresult, -⟩ := Prod.mk.inj h
    obtain ⟨⟨root, found⟩, hfile, hresult⟩ := Source.bind_eq_ok.1 hresult
    obtain ⟨env', henter, hresult⟩ := Source.bind_eq_ok.1 hresult
    obtain ⟨t', htemplate, hresult⟩ := Source.bind_eq_ok.1 hresult
    cases hresult
    obtain ⟨hfree, rfl⟩ := enterInclude_eq_ok.1 henter
    refine ⟨_, found, Template.ofFile_head htemplate,
      Path.isAbsolute_absoluteFrom _ (Source.isAbsolute_cwdPath _),
      (Path.components_absoluteFrom (isAbsolute_pageFile hroot hfile) _).symm, hfree, rfl,
      fun _ _ hdir => Template.ofFile_rootdir htemplate hdir, fun chain hchain => ?_⟩
    obtain ⟨e, herror⟩ := enterInclude_eq_error
      { s.env.derive with including := chain } hchain
    refine ⟨e, s.world.withTemplate, ?_⟩
    unfold pageWithin
    rw [if_neg (by simp [hcache])]
    exact congrArg (·, s.world.withTemplate)
      (Source.bind_eq_error.2 (.inr ⟨(root, found), hfile, Source.bind_eq_error.2 (.inl herror)⟩))
  · rcases hpage : s.pageFromCache name with ⟨e | t', world'⟩ <;> rw [hpage] at h
    · cases h
    obtain ⟨file, hfile, habsolute⟩ := (rooted_pageFromCache hrooted name).2 t' (by rw [hpage])
    obtain ⟨rest, hpaths⟩ := List.head?_eq_some_iff.1 hfile
    simp only [if_true, hpaths] at h
    rcases henter : enterInclude s.env.derive file with e | env' <;> rw [henter] at h <;> cases h
    obtain ⟨hfree, rfl⟩ := enterInclude_eq_ok.1 henter
    refine ⟨file, file, hfile, habsolute, rfl, hfree, rfl, fun hnone => ?_, fun chain hchain => ?_⟩
    · rw [hcache] at hnone
      cases hnone
    obtain ⟨e, herror⟩ := enterInclude_eq_error
      { s.env.derive with including := chain } hchain
    refine ⟨e, world, ?_⟩
    unfold pageWithin
    have hpage' : pageFromCache ⟨{ s.env with including := chain }, s.world⟩ name =
        (.ok t, world) := hpage
    rw [if_pos hcache, hpage']
    simp only [hpaths]
    exact congrArg (fun result => (result.map (t, ·), world)) herror

/-! ## Along the chain -/

/-- What nested includes come with: the files on their chain are absolute and distinct, and recorded
in the environment. -/
structure Entered (chain : List Path) (s : Scene σ) : Prop where
  located : Located s.env
  rooted : s.world.Rooted
  absolute : ∀ p ∈ chain, p.isAbsolute = true
  distinct : chain.Pairwise fun p q => p.same q = false
  recorded : ∀ p ∈ chain, s.env.including.any (·.same p) = true

variable {chain : List Path} {s s' : Scene σ} {name : String} {t : Template}

/-- What is recorded is so under any path with the same components. -/
lemma any_same {recorded : List Path} {p q : Path} (hp : recorded.any (·.same p) = true)
    (h : p.components = q.components) : recorded.any (·.same q) = true := by
  obtain ⟨r, hr, hsame⟩ := List.any_eq_true.1 hp
  exact List.any_eq_true.2 ⟨r, hr, Path.same_iff.2 ((Path.same_iff.1 hsame).trans h)⟩

/-- Entering a page puts its file on the chain. -/
lemma Entered.page {env : Environment σ} {world : World σ} (h : Entered chain s)
    (hpage : s.pageWithin name = (.ok (t, env), world)) :
    Entered (chain ++ t.paths.head?.toList) ⟨env, world⟩ := by
  obtain ⟨file, found, hentry⟩ := pageWithin_eq_ok h.located h.rooted hpage
  have hrooted := rooted_pageWithin h.rooted name
  rw [hpage] at hrooted
  have hdistinct (p : Path) (hp : p ∈ chain) : p.same file = false := by
    by_contra hsame
    rw [Bool.not_eq_false, Path.same_iff, ← hentry.components] at hsame
    have hrecorded := any_same (h.recorded p hp) hsame
    rw [hentry.free] at hrecorded
    cases hrecorded
  rw [hentry.head, hentry.env_eq]
  refine ⟨h.located, hrooted, fun p hp => ?_, ?_, fun p hp => ?_⟩
  · rcases List.mem_append.1 hp with hp | hp
    · exact h.absolute p hp
    · rw [List.mem_singleton.1 hp]
      exact hentry.absolute
  · refine List.pairwise_append.2 ⟨h.distinct, List.pairwise_singleton _ _, fun p hp q hq => ?_⟩
    rw [List.mem_singleton.1 hq]
    exact hdistinct p hp
  · rw [List.any_append, Bool.or_eq_true]
    rcases List.mem_append.1 hp with hp | hp
    · exact .inl (h.recorded p hp)
    · rw [List.mem_singleton.1 hp]
      exact .inr (List.any_eq_true.2 ⟨found, List.mem_singleton.2 rfl,
        Path.same_iff.2 hentry.components⟩)

/-- What a page does before its next include leaves the chain alone. -/
lemma Entered.comes {depth : Nat} (h : Entered chain s)
    (hroots : s.env.hasCache = false → ∀ dir, .rootdir dir ∈ t.program → dir.isAbsolute = true)
    {n : Nat} (hcomes : includeAt (includePageWithin depth) t s n = some (name, s')) :
    Entered chain s' := by
  unfold includeAt at hcomes
  split at hcomes
  rotate_left
  · cases hcomes
  next chunk _ _ =>
  -- what holds of the scene that the evaluation starts in holds wherever it has come to
  have hkept := kept_goOn t.program (includer_includePageWithin depth)
    (((s.onEnv (·.enter t)).machine t.program chunk).run maxSteps, s.onEnv (·.enter t)) n
  have hrooted := goOn_induction (motive := (·.world.Rooted))
    (rooted_answer t.program (rooted_includePageWithin depth))
    (((s.onEnv (·.enter t)).machine t.program chunk).run maxSteps, s.onEnv (·.enter t)) h.rooted n
  dsimp only at hcomes
  split at hcomes
  rotate_left
  · cases hcomes
  next hreach =>
  rw [hreach] at hkept hrooted
  cases hcomes
  refine ⟨?_, hrooted, h.absolute, h.distinct, fun p hp => ?_⟩
  · rcases hcache : s.env.hasCache with _ | _
    · right
      rcases hkept.rootdir with hsame | ⟨dir, hdir, hset⟩
      · rw [hsame]
        rcases h.located with hlocated | hroot
        · rw [hlocated] at hcache
          cases hcache
        · exact hroot
      · rw [hset]
        rintro _ ⟨⟩
        exact hroots hcache dir hdir
    · exact .inl (hkept.hasCache.trans hcache)
  · rw [hkept.including]
    exact h.recorded p hp

/-- **The files on a chain of nested includes are distinct.** -/
lemma Nested.entered {outer : Scene σ} {most depth : Nat}
    (h : Nested outer most chain depth name s)
    (hlocated : Located outer.env) (hrooted : outer.world.Rooted) : Entered chain s := by
  induction h with
  | outermost name => exact ⟨hlocated, hrooted, by simp, .nil, by simp⟩
  | inner h hpage hcomes ih =>
    obtain ⟨file, found, hentry⟩ := pageWithin_eq_ok ih.located ih.rooted hpage
    refine (ih.page hpage).comes (fun hcache => ?_) hcomes
    rw [hentry.env_eq] at hcache
    exact hentry.roots hcache

/-- **A file is not included while it is being included.**  Among the files whose evaluation has
been started by an include and is still going on no two are the same, and a page whose template
would be that of one of them is not evaluated: its include writes a mark. -/
theorem nested_apart {outer : Scene σ} {most depth : Nat} (hlocated : Located outer.env)
    (hrooted : outer.world.Rooted) (h : Nested outer most chain depth name s) :
    (∀ p ∈ chain, p.isAbsolute = true) ∧ (chain.Pairwise fun p q => p.same q = false) ∧
      ∀ t env world file,
        pageWithin ⟨{ s.env with including := [] }, s.world⟩ name = (.ok (t, env), world) →
        t.paths.head? = some file → (∃ p ∈ chain, p.same file = true) →
        (s.includePageWithin depth name).env = s.env.writeEscaped (includeMark name) := by
  have hentered := h.entered hlocated hrooted
  refine ⟨hentered.absolute, hentered.distinct, fun t env world file hpage hfile hmem => ?_⟩
  obtain ⟨p, hp, hsame⟩ := hmem
  obtain ⟨file', found, hentry⟩ := pageWithin_eq_ok
    (s := ⟨{ s.env with including := [] }, s.world⟩) hentered.located hentered.rooted hpage
  obtain rfl := Option.some.inj (hentry.head.symm.trans hfile)
  have hrecorded := any_same (hentered.recorded p hp)
    ((Path.same_iff.1 hsame).trans hentry.components.symm)
  obtain ⟨e, world', herror⟩ := hentry.again s.env.including hrecorded
  exact includePageWithin_refused (s := s) herror depth

/-- The file that including a page comes to evaluate, with what that is about to include when it has
made so many requests. -/
def nextInclude (depth n : Nat) (name : String) (s : Scene σ) :
    Option (Option Path × String × Scene σ) :=
  match s.pageWithin name with
  | (.ok (t, env), world) =>
    (includeAt (includePageWithin depth) t ⟨env, world⟩ n).map fun at' => (t.paths.head?, at')
  | (.error _, _) => none

lemma Nested.next {outer : Scene σ} {most depth n : Nat} {name' : String} {file : Option Path}
    (h : Nested outer most chain (depth + 1) name s)
    (hnext : s.nextInclude depth n name = some (file, name', s')) :
    Nested outer most (chain ++ file.toList) depth name' s' := by
  unfold nextInclude at hnext
  split at hnext
  · next t env world hpage =>
    obtain ⟨at', hat, heq⟩ := Option.map_eq_some_iff.1 hnext
    cases heq
    exact .inner h hpage hat
  · cases hnext

/-- A file `/s/p` that includes the page `p`, which is itself. -/
def looping : FileTree where
  entries := [([['s']], .directory),
    ([['s'], ['p']], .file (Utf8.encode "x[include('p')]".toList) 0)]
  cwd := []

/-- A scene without a cache, with that file and a root. -/
def beforeLoop (root : String) : Scene Unit where
  env := { (default : Environment Unit) with rootdir := some (.ofString root) }
  world := { files := looping, now := 0, state := () }

/-- The file of the template of a page, if no chain refuses it. -/
def fileOf (name : String) (s : Scene σ) : Option Path :=
  match pageWithin ⟨{ s.env with including := [] }, s.world⟩ name with
  | (.ok (t, _), _) => t.paths.head?
  | (.error _, _) => none

/-- With an absolute root, a page that includes itself is evaluated once. -/
theorem nested_apart_looping : ∃ s,
    Nested (beforeLoop "/s") maxIncludes [.ofString "/s/p"] 1999 "p" s ∧
    (s.includePageWithin 1999 "p").env = s.env.writeEscaped (includeMark "p") := by
  have hlocated : Located (beforeLoop "/s").env := by
    right
    rintro _ ⟨⟩
    rfl
  have hcheck : ((beforeLoop "/s").nextInclude 1999 3 "p").map
      (fun (file, name, s) => (file, name, s.fileOf name)) =
        some (some (.ofString "/s/p"), "p", some (.ofString "/s/p")) := by
    decide +kernel
  obtain ⟨⟨file, name, s⟩, hnext, hfiles⟩ := Option.map_eq_some_iff.1 hcheck
  simp only [Prod.mk.injEq] at hfiles
  obtain ⟨rfl, rfl, hfile⟩ := hfiles
  have hnested := (Nested.outermost "p").next hnext
  refine ⟨s, hnested, ?_⟩
  unfold fileOf at hfile
  split at hfile
  · next hpage =>
    exact (nested_apart hlocated (fun _ hcache => by cases hcache) hnested).2.2 _ _ _ _ hpage hfile
      ⟨_, List.mem_singleton.2 rfl, Path.same_refl _⟩
  · cases hfile

/-- With a relative root, it is evaluated a second time while it is being evaluated. -/
theorem includePage_twice :
    (∃ s, Nested (beforeLoop "s") maxIncludes [.ofString "/s/p", .ofString "/s/p"] 1998 "p" s) ∧
      ((beforeLoop "s").includePage "p").env.output = "xx[dynamic include of 'p' failed]" := by
  refine ⟨?_, by decide +kernel⟩
  have hcheck : ((beforeLoop "s").nextInclude 1999 3 "p").bind
      (fun (file, name, s) => (s.nextInclude 1998 3 name).map fun (file', name', _) =>
        (name, file, file', name')) =
        some ("p", some (.ofString "/s/p"), some (.ofString "/s/p"), "p") := by
    decide +kernel
  obtain ⟨⟨file, name, s⟩, hnext, hcheck⟩ := Option.bind_eq_some_iff.1 hcheck
  obtain ⟨⟨file', name', s'⟩, hnext', hfiles⟩ := Option.map_eq_some_iff.1 hcheck
  simp only [Prod.mk.injEq] at hfiles
  obtain ⟨rfl, rfl, rfl, rfl⟩ := hfiles
  exact ⟨s', ((Nested.outermost "p").next hnext).next hnext'⟩

end Scene

end BracketTemplate
