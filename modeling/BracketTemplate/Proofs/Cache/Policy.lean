import Mathlib
import BracketTemplate.Proofs.Cache.Remaking

/-!
# What the policies do

A page of the cache is given out as it is, or its file is compiled, as the policy and the times of
its files have it (`Site.Keeps`).  What is given out has been compiled once, from the files of one
moment, and that was the last time that a compile of it succeeded (`Site.IsNew.exists_renewal`).

`Site.get_by_policy` puts this together, for any use of a cache.  A page without a directory around
it cannot be compiled, and is refused rather than missing.  The only one is the root directory of
the file system, under an empty name (`Site.get_by_policy_rootless`).
-/

namespace BracketTemplate

/-! ## Recent changes -/

lemma Page.any_isRecent {newest : Option Int} {now : Int} {window : Nat} :
    newest.any (isRecent now window) = true ↔
      ∃ latest, newest = some latest ∧ (now < latest ∨ now - latest < window) := by
  cases newest with
  | none => simp
  | some latest => simp [isRecent]

lemma Page.hasChanged_debounced {o : Occasion} {page : Page} {newest : Option Int}
    (h : newestModification o.files page.template.paths = .ok newest) (window : Nat) :
    page.hasChanged o (.debounced window) =
      .ok (!newest.any (isRecent o.now window) && newest != page.modified) := by
  rw [Page.hasChanged, Page.modifiedNow_eq_ok.2 h]
  change (if newest.any (isRecent o.now window) then _ else _) = _
  cases newest.any (isRecent o.now window) <;> rfl

namespace Site

variable {site : Site} {events : List Event} {name : String} {page : Page} {now : Int}
  {identity : Nat}

/-! ## The table of policies -/

/-- When a page of the cache still does. -/
inductive Keeps (site : Site) (page : Page) (now : Int) : Prop
  /-- The policy does not look. -/
  | never (hpolicy : site.cache.policy = .never)
  /-- It looks, and the latest time of the files is the one from before. -/
  | unchanged (hpolicy : site.cache.policy.watches = true)
      (hnewest : site.files.IsNewest page.template.paths page.modified)
  /-- It waits, and that time has not come yet or is less than the window ago. -/
  | recent {window : Nat} {latest : Int} (hpolicy : site.cache.policy = .debounced window)
      (hnewest : site.files.IsNewest page.template.paths (some latest))
      (hrecent : now < latest ∨ now - latest < window)

/-- What a policy that looks finds. -/
lemma hasChanged_of_isNewest {newest : Option Int}
    (hnewest : site.files.IsNewest page.template.paths newest) (now : Int) (identity : Nat) :
    (site.cache.policy = .immediate →
      page.hasChanged (site.occasion now identity) site.cache.policy =
        .ok (newest != page.modified)) ∧
    ∀ window, site.cache.policy = .debounced window →
      page.hasChanged (site.occasion now identity) site.cache.policy =
        .ok (!newest.any (Page.isRecent now window) && newest != page.modified) := by
  have hmodified : newestModification (site.occasion now identity).files page.template.paths =
      .ok newest := newestModification_iff.2 hnewest
  refine ⟨fun hpolicy => ?_, fun window hpolicy => ?_⟩
  · rw [hpolicy, Page.hasChanged_immediate hmodified]
  · rw [hpolicy, Page.hasChanged_debounced hmodified]
    rfl

/-- The policy finds no change in a page that still does. -/
lemma Keeps.hasChanged (h : site.Keeps page now) (identity : Nat) :
    page.hasChanged (site.occasion now identity) site.cache.policy = .ok false := by
  cases h with
  | never hpolicy =>
    rw [hpolicy]
    rfl
  | unchanged hpolicy hnewest =>
    have hfound := hasChanged_of_isNewest hnewest now identity
    cases hcase : site.cache.policy with
    | never | always =>
      rw [hcase] at hpolicy
      cases hpolicy
    | immediate => rw [← hcase, hfound.1 hcase, bne_self_eq_false]
    | debounced window => rw [← hcase, hfound.2 window hcase, bne_self_eq_false, Bool.and_false]
  | @recent window latest hpolicy hnewest hrecent =>
    have hany : (some latest).any (Page.isRecent now window) = true :=
      Page.any_isRecent.2 ⟨latest, rfl, hrecent⟩
    rw [(hasChanged_of_isNewest hnewest now identity).2 window hpolicy, hany]
    rfl

/-- It finds one in a page that does not, if all files can be looked at or it does not look. -/
lemma hasChanged_of_not_keeps (h : ¬site.Keeps page now)
    (hlook : site.cache.policy = .always ∨
      ∀ p ∈ page.template.paths, ∃ time, site.files.modified p = .ok time) (identity : Nat) :
    page.hasChanged (site.occasion now identity) site.cache.policy = .ok true := by
  rcases hlook with hpolicy | hfiles
  · rw [hpolicy]
    rfl
  obtain ⟨newest, hmodified⟩ := exists_newestModification hfiles
  have hnewest := newestModification_iff.1 hmodified
  have hne : site.cache.policy.watches = true → newest ≠ page.modified :=
    fun hwatches heq => h (.unchanged hwatches (heq ▸ hnewest))
  have hfound := hasChanged_of_isNewest hnewest now identity
  cases hcase : site.cache.policy with
  | never => exact absurd (.never hcase) h
  | always => rfl
  | immediate =>
    rw [← hcase, hfound.1 hcase, bne_iff_ne.2 (hne (by rw [hcase]; rfl))]
  | debounced window =>
    have hold : ¬newest.any (Page.isRecent now window) = true := by
      intro hany
      obtain ⟨latest, rfl, hrecent⟩ := Page.any_isRecent.1 hany
      exact h (.recent hcase hnewest hrecent)
    rw [← hcase, hfound.2 window hcase, bne_iff_ne.2 (hne (by rw [hcase]; rfl)),
      Bool.eq_false_iff.2 hold]
    rfl

/-! ## Where the pages of a cache come from -/

/-- Getting a page compiles its file and puts what comes of it in the cache. -/
def Renews (site : Site) (name : String) (now : Int) (identity : Nat) (fresh : Page) : Prop :=
  site.cache.Renews (site.occasion now identity) name fresh

/-- An event that does not renew the page of a name leaves it as it is, but for the time of a
look. -/
lemma page?_step {event : Event} (hnot : ∀ now identity, event = .get name now identity →
    ∀ fresh, ¬site.Renews name now identity fresh) :
    ∃ time, (site.step event).cache.page? name =
      (site.cache.page? name).map fun p => { p with checkedAt := time } := by
  cases event with
  | change entries => exact (Cache.Untouched.refl name _).page name
  | setPolicy policy => exact (Cache.Untouched.refl name _).page name
  | get got now identity =>
    rw [step, Cache.get_snd]
    by_cases hgot : got = name
    · subst hgot
      exact (Cache.untouched (hnot now identity rfl)).page got
    · rw [Cache.page?_lookup_of_ne _ _ (Ne.symm hgot)]
      exact (Cache.Untouched.refl name _).page name

/-- In the course of some events no compile of the page of a name succeeds. -/
def Quiet (site : Site) (name : String) (events : List Event) : Prop :=
  ∀ between now identity rest, events = between ++ .get name now identity :: rest →
    ∀ fresh, ¬(site.run between).Renews name now identity fresh

lemma quiet_nil (site : Site) (name : String) : site.Quiet name [] := by
  intro between _ _ _ hsplit
  cases between <;> cases hsplit

lemma Quiet.of_append {others : List Event} (h : site.Quiet name (events ++ others)) :
    site.Quiet name events := by
  intro between now identity rest hsplit
  exact h between now identity (rest ++ others)
    (by rw [hsplit, List.append_assoc, List.cons_append])

lemma Quiet.concat (h : site.Quiet name events) {event : Event}
    (hnot : ∀ now identity, event = .get name now identity →
      ∀ fresh, ¬(site.run events).Renews name now identity fresh) :
    site.Quiet name (events ++ [event]) := by
  intro between now identity rest hsplit
  rcases List.eq_nil_or_concat rest with rfl | ⟨rest, last, rfl⟩
  · obtain ⟨rfl, hevent⟩ := List.append_inj' hsplit rfl
    exact hnot now identity (by simpa using hevent)
  · have hsplit : events ++ [event] = (between ++ .get name now identity :: rest) ++ [last] := by
      rw [hsplit, List.concat_eq_append, List.append_assoc, List.cons_append]
    obtain ⟨rfl, -⟩ := List.append_inj' hsplit rfl
    exact h between now identity rest rfl

/-- **A page that is not renewed stays as it is**, but for the time of the last look. -/
theorem Quiet.page?_run (h : site.Quiet name events) :
    ∃ time, (site.run events).cache.page? name =
      (site.cache.page? name).map fun p => { p with checkedAt := time } := by
  induction events using List.reverseRecOn with
  | nil => exact (Cache.Untouched.refl name _).page name
  | append_singleton events event ih =>
    obtain ⟨_, hkept⟩ := ih h.of_append
    have hnot : ∀ now identity, event = .get name now identity →
        ∀ fresh, ¬(site.run events).Renews name now identity fresh := by
      intro now identity hevent
      exact h events now identity [] (by rw [hevent])
    obtain ⟨time, hstep⟩ := page?_step hnot
    rw [run_append, run_cons, run_nil, hstep, hkept, Option.map_map]
    exact ⟨time, rfl⟩

/-- **Every page of a cache comes from its last renewal**, and only the time of the last look is its
own. -/
theorem IsNew.exists_renewal (hnew : site.IsNew)
    (h : (site.run events).cache.page? name = some page) :
    ∃ before now identity after fresh time, events = before ++ .get name now identity :: after ∧
      (site.run before).Renews name now identity fresh ∧
      (site.run (before ++ [.get name now identity])).Quiet name after ∧
      page = { fresh with checkedAt := time } := by
  induction events using List.reverseRecOn generalizing page with
  | nil =>
    obtain ⟨before, _, _, after, hevents, -⟩ := hnew.run_page h
    cases before <;> cases hevents
  | append_singleton events event ih =>
    rw [run_append, run_cons, run_nil] at h
    by_cases hrenews : ∃ now identity fresh, event = .get name now identity ∧
        (site.run events).Renews name now identity fresh
    · obtain ⟨now, identity, fresh, rfl, hrenews⟩ := hrenews
      rw [step, Cache.get_snd, hrenews.renewed.page] at h
      cases h
      exact ⟨events, now, identity, [], _, _, rfl, hrenews, quiet_nil _ _, rfl⟩
    · -- the page is there from before, and its renewal is
      have hnot : ∀ now identity, event = .get name now identity →
          ∀ fresh, ¬(site.run events).Renews name now identity fresh :=
        fun now identity hevent fresh hfresh => hrenews ⟨now, identity, fresh, hevent, hfresh⟩
      obtain ⟨time, hstep⟩ := page?_step hnot
      rw [hstep, Option.map_eq_some_iff] at h
      obtain ⟨old, hold, rfl⟩ := h
      obtain ⟨before, now, identity, after, fresh, _, rfl, hfresh, hquiet, rfl⟩ := ih hold
      refine ⟨before, now, identity, after ++ [event], fresh, time, by simp, hfresh,
        hquiet.concat ?_, rfl⟩
      rw [← run_append, List.append_assoc]
      exact hnot

/-! ## A policy that never looks -/

/-- No event sets another policy than the one that never looks. -/
def Settled (events : List Event) : Prop := ∀ policy, .setPolicy policy ∈ events → policy = .never

/-- Then that policy stays. -/
lemma policy_run_never (hpolicy : site.cache.policy = .never) (hsettled : Settled events) :
    (site.run events).cache.policy = .never := by
  induction events generalizing site with
  | nil => exact hpolicy
  | cons event events ih =>
    rw [run_cons]
    refine ih ?_ fun policy hmem => hsettled policy (List.mem_cons_of_mem _ hmem)
    cases event with
    | change entries => exact hpolicy
    | setPolicy policy => exact hsettled policy List.mem_cons_self
    | get got now identity => rw [step, Cache.get_snd, Cache.policy_lookup, hpolicy]

/-- And no page is renewed that is there. -/
lemma quiet_never (hpolicy : site.cache.policy = .never) (hsettled : Settled events)
    (hpage : site.cache.page? name = some page) : site.Quiet name events := by
  induction events using List.reverseRecOn with
  | nil => exact quiet_nil site name
  | append_singleton events event ih =>
    have hbefore : Settled events := fun policy hmem => hsettled policy (by simp [hmem])
    have hquiet := ih hbefore
    obtain ⟨time, hkept⟩ := hquiet.page?_run
    rw [hpage] at hkept
    refine hquiet.concat fun now identity _ => Cache.not_renews_of_page hkept ?_
    rw [policy_run_never hpolicy hbefore]
    exact nofun

/-! ## Getting a page -/

/-- The page of a name stems from an event that got it.  It has the template that was made of its
file then and the latest of the times that its files had, and no compile of it has succeeded
since. -/
def Stems (site : Site) (events : List Event) (name : String) (page : Page) : Prop :=
  ∃ before now identity after, events = before ++ .get name now identity :: after ∧
    site.cache.pathOf name = .ok page.path ∧
    Template.ofFile site.cache.evaluator (site.run before).files identity page.path
      (some site.cache.rootdir) = .ok page.template ∧
    (site.run before).files.IsNewest page.template.paths page.modified ∧
    (site.run (before ++ [.get name now identity])).Quiet name after

/-- Every page of a cache stems from an event. -/
theorem IsNew.stems (hnew : site.IsNew) (h : (site.run events).cache.page? name = some page) :
    site.Stems events name page := by
  obtain ⟨before, now, identity, after, fresh, time, hevents, hrenews, hquiet, rfl⟩ :=
    hnew.exists_renewal h
  obtain ⟨path, hcompiles, hfresh⟩ := hrenews
  have hpath := hnew.pathOf_compiles hcompiles
  rw [evaluator_run, rootdir_run] at hfresh
  obtain ⟨htemplate, hnewest, hsame, -⟩ := Page.compile_eq_ok.1 hfresh
  refine ⟨before, now, identity, after, hevents, ?_, ?_, newestModification_iff.1 hnewest, hquiet⟩
  · rw [hpath, ← hsame]
  · rw [← htemplate, ← hsame]
    rfl

/-- A page that is kept is the one that is got. -/
lemma get_of_keeps (hpage : site.cache.page? name = some page) (hkeeps : site.Keeps page now)
    (identity : Nat) :
    site.get name now identity = .ok (some page.template) ∧
      (∀ fresh, ¬site.Renews name now identity fresh) ∧
      ∃ time, (site.step (.get name now identity)).cache.page? name =
        some { page with checkedAt := time } := by
  have hchanged := hkeeps.hasChanged identity
  have hnot : ∀ fresh, ¬site.Renews name now identity fresh := by
    refine Cache.not_renews_of_page hpage ?_
    rw [hchanged]
    exact nofun
  obtain ⟨time, hsame⟩ := (Cache.untouched hnot).page name
  rw [hpage] at hsame
  refine ⟨Cache.get_eq_some.2 (Cache.lookup_kept hpage hchanged), hnot, time, ?_⟩
  rw [step, Cache.get_snd, hsame]
  rfl

/-- A name that stands for no file is refused. -/
lemma get_refused (hnone : site.cache.page? name = none) {e : TemplateError}
    (hpath : site.cache.pathOf name = .error e) : site.get name now identity = .error e := by
  have hlookup : (site.cache.lookup (site.occasion now identity) name).1 = .error e := by
    simp only [Cache.lookup, hnone, hpath]
  refine Cache.get_eq_error hlookup ?_
  rcases Source.bind_eq_error.1 hpath with hcheck | ⟨_, -, hpath⟩
  · rw [Path.isMissing_checkSegments hcheck]
    exact Bool.false_ne_true
  · cases hpath

/-- **What is got of a policy that never looks** is what is got ever after. -/
theorem get_never (hpolicy : site.cache.policy = .never) (hsettled : Settled events) {t : Template}
    (h : site.get name now identity = .ok (some t)) (now' : Int) (identity' : Nat) :
    (site.run (.get name now identity :: events)).get name now' identity' = .ok (some t) := by
  obtain ⟨page, hpage, rfl⟩ := Cache.exists_page_of_lookup (Cache.get_eq_some.1 h)
  have hstep : (site.step (.get name now identity)).cache.page? name = some page := by
    rw [step, Cache.get_snd]
    exact hpage
  have hnever : (site.step (.get name now identity)).cache.policy = .never := by
    rw [step, Cache.get_snd, Cache.policy_lookup, hpolicy]
  obtain ⟨time, hkept⟩ := (quiet_never hnever hsettled hstep).page?_run
  rw [hstep] at hkept
  have hkeeps : ((site.step (.get name now identity)).run events).Keeps
      { page with checkedAt := time } now' := .never (policy_run_never hnever hsettled)
  exact (get_of_keeps hkept hkeeps identity').1

/-- **Getting a page goes by the policy.**  A page of the cache stems from its last compile that
succeeded.  It is got as it is when it still does, and otherwise, if all its files can be looked at
or need not be, its file is compiled; so is that of a page that the cache does not have.  Where the
policy is never to look, what is got once is got ever after. -/
theorem get_by_policy (hnew : site.IsNew) (events : List Event) (name : String) (now : Int)
    (identity : Nat) :
    (∀ page, (site.run events).cache.page? name = some page →
      site.Stems events name page ∧
      ((site.run events).Keeps page now →
        (site.run events).get name now identity = .ok (some page.template) ∧
        (∀ fresh, ¬(site.run events).Renews name now identity fresh) ∧
        ∃ time, (site.run (events ++ [.get name now identity])).cache.page? name =
          some { page with checkedAt := time }) ∧
      (¬(site.run events).Keeps page now →
        ((site.run events).cache.policy = .always ∨
          ∀ p ∈ page.template.paths, ∃ time, (site.run events).files.modified p = .ok time) →
        (site.run events).Remakes name page.path now identity)) ∧
    ((site.run events).cache.page? name = none →
      (∀ e, site.cache.pathOf name = .error e →
        (site.run events).get name now identity = .error e) ∧
      ∀ path, site.cache.pathOf name = .ok path →
        (site.run events).Remakes name path now identity) ∧
    ∀ later now' identity' t t', site.cache.policy = .never → Settled (events ++ later) →
      (site.run events).get name now identity = .ok (some t) →
      (site.run (events ++ .get name now identity :: later)).get name now' identity' =
        .ok (some t') → t' = t := by
  have hcwd := hnew.cwd_occasion events now identity
  refine ⟨fun page hpage => ⟨hnew.stems hpage, fun hkeeps => ?_, fun hnot hlook => ?_⟩,
    fun hnone => ⟨fun e hpath => ?_, fun path hpath => ?_⟩, ?_⟩
  · rw [run_append, run_cons, run_nil]
    exact get_of_keeps hpage hkeeps identity
  · exact remakes_of_compiles hcwd (.changed hpage (hasChanged_of_not_keeps hnot hlook identity))
  · rw [← pathOf_run site events] at hpath
    exact get_refused hnone hpath
  · rw [← pathOf_run site events] at hpath
    exact remakes_of_compiles hcwd (.new hnone hpath)
  · intro later now' identity' t t' hpolicy hsettled hfirst hsecond
    have hearlier : Settled events := fun policy hmem => hsettled policy (by simp [hmem])
    have hlater : Settled later := fun policy hmem => hsettled policy (by simp [hmem])
    have hsame := get_never (policy_run_never hpolicy hearlier) hlater hfirst now' identity'
    rw [run_append, hsame] at hsecond
    cases hsecond
    rfl

/-- A page is got by a policy that never looks, and its header is written. -/
def overlooking : List Event :=
  [.setPolicy .never, .get "page" 10 1, .change reheaded.entries]

/-- The same by a policy that looks. -/
def watching : List Event := [.get "page" 10 1, .change reheaded.entries]

/-- The first policy keeps the page, and the second one has it compiled. -/
theorem get_by_policy_reheaded :
    (∃ page, (headed.run overlooking).cache.page? "page" = some page ∧
      headed.Stems overlooking "page" page ∧
      (headed.run overlooking).get "page" 30 2 = .ok (some page.template)) ∧
    ∃ page, (headed.run watching).cache.page? "page" = some page ∧
      (headed.run watching).Remakes "page" page.path 30 2 := by
  constructor
  · have hpage : ((headed.run overlooking).cache.page? "page").isSome = true := by decide +kernel
    have hnever : (headed.run overlooking).cache.policy = .never := by decide +kernel
    obtain ⟨page, hpage⟩ := Option.isSome_iff_exists.1 hpage
    obtain ⟨hstems, hkept, -⟩ :=
      (get_by_policy headed_isNew overlooking "page" 30 2).1 page hpage
    exact ⟨page, hpage, hstems, (hkept (.never hnever)).1⟩
  · have hfields : ((headed.run watching).cache.page? "page").map
        (fun page => (page.template.paths, page.modified)) =
        some ([⟨"/w/page".toList⟩, ⟨"/w/header".toList⟩], some 2) := by
      decide +kernel
    have hnewest : newestModification (headed.run watching).files
        [⟨"/w/page".toList⟩, ⟨"/w/header".toList⟩] = .ok (some 20) := by
      decide +kernel
    have hpolicy : (headed.run watching).cache.policy = .immediate := by decide +kernel
    obtain ⟨page, hpage, hfields⟩ := Option.map_eq_some_iff.1 hfields
    obtain ⟨hpaths, hmodified⟩ := Prod.mk.inj hfields
    rw [← hpaths] at hnewest
    obtain ⟨-, -, hremakes⟩ := (get_by_policy headed_isNew watching "page" 30 2).1 page hpage
    refine ⟨page, hpage, hremakes (fun hkeeps => ?_) (.inr fun p hp => ?_)⟩
    · cases hkeeps with
      | never hnever => cases hpolicy.symm.trans hnever
      | recent hdebounced => cases hpolicy.symm.trans hdebounced
      | unchanged _ hsame =>
        have hsame := newestModification_iff.2 hsame
        rw [hnewest, hmodified] at hsame
        cases hsame
    · obtain ⟨time, -, htime, -, -⟩ := exists_modified hnewest hp
      exact ⟨time, htime⟩

/-- A cache for the pages below the root of the file system. -/
def rootless : Site where
  files := { entries := [], cwd := [] }
  cache := { rootdir := ⟨['/']⟩, policy := .immediate, pages := [], evaluator := .idle }

/-- The page under the empty name is a directory, and getting it is an error nevertheless. -/
theorem get_by_policy_rootless :
    rootless.IsNew ∧ rootless.cache.page? "" = none ∧ rootless.IsFileOf "" ⟨['/']⟩ ∧
      rootless.files.readBytes ⟨['/']⟩ = .error .isADirectory ∧
      rootless.get "" 10 1 = .error (.security ⟨['/']⟩ .noParent) := by
  have habsolute : (Path.mk ['/']).absolutize rootless.files.cwdPath = .ok ⟨['/']⟩ := by
    decide +kernel
  refine ⟨⟨by decide +kernel, ⟨['/']⟩, .immediate, .idle, ?_⟩, rfl,
    ⟨⟨['/']⟩, by decide +kernel, habsolute⟩, by decide +kernel, by decide +kernel⟩
  rw [Cache.create, habsolute]
  rfl

end Site

end BracketTemplate
