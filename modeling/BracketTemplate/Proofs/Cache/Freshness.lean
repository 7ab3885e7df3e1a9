import Mathlib
import BracketTemplate.Proofs.Cache.Run

/-!
# Fresh pages

A page that is found good by its newest time is good, as long as times go up.  Its files are those
that it was compiled from (`FileTree.Later.keeps`), a compile depends on nothing else, and so the
template that the cache has is the one that would be made now (`Template.ofFile_later`).

`Site.get_fresh` is what follows for any use of a cache.  It holds whatever the policies were on the
way: a page may have been kept for long by a policy that does not look, and compiles may have
failed.  What counts is the policy at the time of getting, which has to look, and with a debounced
policy the time since the last change.
-/

namespace BracketTemplate

/-- **A template whose newest time has not changed** is the one that would be made now. -/
theorem Template.ofFile_later {old now : FileTree} {evaluator : Evaluator} {identity : Nat}
    {p : Path} {rootdir : Option Path} {t : Template} (hcwd : old.cwdPath.hasParentSegment = false)
    (h : Template.ofFile evaluator old identity p rootdir = .ok t)
    (hsame : now.cwdPath = old.cwdPath) (hlater : FileTree.Later old now) {newest : Option Int}
    (hold : newestModification old t.paths = .ok newest)
    (hnow : newestModification now t.paths = .ok newest) (identity' : Nat) :
    Template.ofFile evaluator now identity' p rootdir = .ok { t with identity := identity' } := by
  refine Template.ofFile_agree hcwd h hsame (fun q hq content hread => ?_) identity'
  rw [hlater.keeps (Template.ofFile_paths hcwd h) hold hnow hq, hread]

namespace Site

/-! ## Times that go up -/

/-- Every change of the files is one by which times go up; `past` are the trees before this one. -/
def Orderly : List FileTree → FileTree → List Event → Prop
  | _, _, [] => True
  | past, tree, .change entries :: rest =>
    FileTree.Change past tree { tree with entries } ∧
      Orderly (tree :: past) { tree with entries } rest
  | past, tree, .setPolicy _ :: rest => Orderly past tree rest
  | past, tree, .get _ _ _ :: rest => Orderly past tree rest

variable {site : Site} {past : List FileTree} {old : FileTree}

/-- Where times go up, they do so in the later part of the events, too. -/
lemma Orderly.of_append {before events : List Event}
    (h : Orderly past site.files (before ++ events)) :
    ∃ past, Orderly past (site.run before).files events := by
  induction before generalizing site past with
  | nil => exact ⟨past, h⟩
  | cons event before ih =>
    rw [run_cons]
    cases event with
    | change entries => exact @ih (site.step (.change entries)) _ h.2
    | setPolicy policy => exact @ih (site.step (.setPolicy policy)) _ h
    | get name now identity => exact @ih (site.step (.get name now identity)) _ h

/-- Where times go up, the files stay later than they were. -/
lemma Orderly.later {events : List Event} (h : Orderly past site.files events)
    (hold : old ∈ site.files :: past) (hlater : FileTree.Later old site.files) :
    FileTree.Later old (site.run events).files := by
  induction events generalizing site past with
  | nil => exact hlater
  | cons event events ih =>
    rw [run_cons]
    cases event with
    | change entries =>
      exact @ih (site.step (.change entries)) _ h.2 (List.mem_cons_of_mem _ hold)
        (h.1.later hold hlater)
    | setPolicy policy => exact @ih (site.step (.setPolicy policy)) _ h hold hlater
    | get name now identity => exact @ih (site.step (.get name now identity)) _ h hold hlater

/-! ## Policies that look -/

/-- The policy looks at the files of a page, and none of them has been modified too short a time ago
for it to act. -/
def Attentive (site : Site) (name : String) (now : Int) : Prop :=
  match site.cache.policy with
  | .never => False
  | .always | .immediate => True
  | .debounced window => ∀ page, site.cache.page? name = some page → ∀ p ∈ page.template.paths,
      ∀ time, site.files.modified p = .ok time → time + window ≤ now

/-- An attentive policy keeps a page only when its newest time has not changed. -/
lemma Attentive.newest {name : String} {now : Int} (h : site.Attentive name now) {identity : Nat}
    {page : Page} (hpage : site.cache.page? name = some page)
    (hkept : page.hasChanged (site.occasion now identity) site.cache.policy = .ok false) :
    newestModification site.files page.template.paths = .ok page.modified := by
  unfold Attentive at h
  cases hpolicy : site.cache.policy with
  | never =>
    rw [hpolicy] at h
    exact h.elim
  | always =>
    rw [hpolicy] at hkept
    cases hkept
  | immediate =>
    rw [hpolicy] at hkept
    obtain ⟨newest, hnewest, hkept⟩ := Source.bind_eq_ok.1 hkept
    have hsame : newest = page.modified := by simpa using Except.ok.inj hkept
    rw [← hsame]
    exact Page.modifiedNow_eq_ok.1 hnewest
  | debounced window =>
    rw [hpolicy] at h hkept
    obtain ⟨newest, hnewest, hkept⟩ := Source.bind_eq_ok.1 hkept
    have hnewest := Page.modifiedNow_eq_ok.1 hnewest
    split at hkept
    next hrecent =>
      -- the newest time is that of a file, and none is recent
      cases newest with
      | none => cases hrecent
      | some latest =>
        obtain ⟨p, hp, htime⟩ := newestModification_mem hnewest
        have hpast := h page hpage p hp latest htime
        have hrecent : now < latest ∨ now - latest < window := by
          simpa [Page.isRecent, occasion] using hrecent
        omega
    · have hsame : newest = page.modified := by simpa using Except.ok.inj hkept
      rw [← hsame]
      exact hnewest

/-! ## Getting a page -/

/-- **What is got is what would be compiled.**  When times go up, a template that is got of a page
by an attentive policy has the program and the paths of one that is made of the files as they are
now. -/
theorem get_fresh (hnew : site.IsNew) {events : List Event}
    (horderly : Orderly [] site.files events) {name : String} {now : Int} {identity : Nat}
    {t : Template} (h : (site.run events).get name now identity = .ok (some t))
    (hattentive : (site.run events).Attentive name now) :
    ∃ path fresh, site.cache.pathOf name = .ok path ∧
      Template.ofFile site.cache.evaluator (site.run events).files identity path
        (some site.cache.rootdir) = .ok fresh ∧
      fresh.program = t.program ∧ fresh.paths = t.paths := by
  have hlookup := Cache.get_eq_some.1 h
  have hlooked := Cache.lookup_looked ((site.run events).occasion now identity)
    (site.run events).cache name
  generalize (site.run events).cache.lookup _ name = result at hlookup hlooked
  cases hlooked with
  | refused | failed | unseen | stale => cases hlookup
  | compiled hnone hpath hcompile =>
    cases hlookup
    rw [pathOf_run] at hpath
    rw [evaluator_run, rootdir_run] at hcompile
    exact ⟨_, _, hpath, (Page.compile_eq_ok.1 hcompile).1, rfl, rfl⟩
  | renewed hpage hchanged hcompile =>
    cases hlookup
    obtain ⟨-, -, -, -, -, hpath, -⟩ := hnew.run_page hpage
    rw [evaluator_run, rootdir_run] at hcompile
    exact ⟨_, _, hpath, (Page.compile_eq_ok.1 hcompile).1, rfl, rfl⟩
  | @kept page hpage hchanged =>
    cases hlookup
    obtain ⟨before, now', identity', after, rfl, hpath, hcompile⟩ := hnew.run_page hpage
    obtain ⟨htemplate, hold, -, -⟩ := Page.compile_eq_ok.1 hcompile
    -- from the files of that compile on times have gone up
    obtain ⟨past, hrest⟩ := horderly.of_append
    have hlater := hrest.later List.mem_cons_self (FileTree.Later.refl _)
    rw [← run_append] at hlater
    have hnow := hattentive.newest hpage hchanged
    have hfresh := Template.ofFile_later (hnew.cwd_occasion before now' identity') htemplate
      (by simp [occasion]) hlater hold hnow identity
    exact ⟨_, _, hpath, hfresh, rfl, rfl⟩

/-- A page is got, its header is written, and a policy is set that waits a while after changes. -/
def rewriting : List Event :=
  [.get "page" 10 1, .change reheaded.entries, .setPolicy (.debounced 5)]

theorem get_fresh_rewritten :
    ∃ t, (headed.run rewriting).get "page" 30 3 = .ok (some t) ∧ t.identity = 3 ∧
      ∃ path fresh, headed.cache.pathOf "page" = .ok path ∧
        Template.ofFile headed.cache.evaluator (headed.run rewriting).files 3 path
          (some headed.cache.rootdir) = .ok fresh ∧
        fresh.program = t.program ∧ fresh.paths = t.paths := by
  have horderly : Orderly [] headed.files rewriting := by
    have hwrite : FileTree.Change [] headed.files reheaded := by
      refine .write fun old hold before htime => ?_
      obtain rfl : old = headed.files := by simpa using hold
      exact htime.lt (by decide +kernel)
    exact ⟨hwrite, trivial⟩
  have hget : (headed.run rewriting).get "page" 30 3 = .ok (some ⟨3, ⟨"/w/page",
      [.rootdir ⟨"/w".toList⟩, .workdir ⟨"/w".toList⟩, .workdir ⟨"/w".toList⟩, .emit "N",
        .workdir ⟨"/w".toList⟩, .emit "body"],
      [⟨"/w/page".toList⟩, ⟨"/w/header".toList⟩]⟩, .idle⟩) := by
    decide +kernel
  have hattentive : (headed.run rewriting).Attentive "page" 30 := by
    have hpaths : ((headed.run rewriting).cache.page? "page").map (·.template.paths) =
        some [⟨"/w/page".toList⟩, ⟨"/w/header".toList⟩] := by
      decide +kernel
    have htimes : ∀ p ∈ ([⟨"/w/page".toList⟩, ⟨"/w/header".toList⟩] : List Path),
        (headed.run rewriting).files.modified p ∈ [.ok 1, .ok 20] := by
      decide +kernel
    intro page hpage p hp time htime
    rw [hpage] at hpaths
    change some page.template.paths = _ at hpaths
    rw [Option.some.inj hpaths] at hp
    have hmem := htimes p hp
    rw [htime] at hmem
    simp at hmem
    omega
  exact ⟨_, hget, rfl, get_fresh headed_isNew horderly hget hattentive⟩

end Site

end BracketTemplate
