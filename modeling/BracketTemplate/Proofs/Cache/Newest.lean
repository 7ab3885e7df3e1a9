import Mathlib
import BracketTemplate.Proofs.Cache.Run

/-!
# Pages and the newest of their files

Of the times of the files of a page only the newest is kept.  So a page is compiled again when that
one has changed, up or down: when some file is later than all of them were, or all are earlier than
one of them was (`Site.get_renews`).  A file whose time changes in the shadow of a newer one is not
noticed, even though the page would compile to something else (`Site.get_renews_shadowed`).
-/

namespace BracketTemplate

namespace Site

variable {site : Site}

/-- **When a page is compiled again.**  The files of a page in the cache are all there and it would
compile.  Then getting it makes a new template exactly when the newest time of its files has changed
since its template was made. -/
theorem get_renews (hnew : site.IsNew) {events : List Event}
    (hpolicy : (site.run events).cache.policy = .immediate) {name : String} {page : Page}
    (hpage : (site.run events).cache.page? name = some page) {now : Int} {identity : Nat}
    {fresh : Template}
    (hfresh : Template.ofFile site.cache.evaluator (site.run events).files identity page.path
      (some site.cache.rootdir) = .ok fresh)
    (hfiles : ∀ p ∈ page.template.paths, ∃ time, (site.run events).files.modified p = .ok time) :
    fresh.identity = identity ∧
    ∃ before now' identity' after, events = before ++ .get name now' identity' :: after ∧
      Template.ofFile site.cache.evaluator (site.run before).files identity' page.path
        (some site.cache.rootdir) = .ok page.template ∧
      (Overtakes (site.run before).files (site.run events).files page.template.paths →
        (site.run events).get name now identity = .ok (some fresh)) ∧
      (¬Overtakes (site.run before).files (site.run events).files page.template.paths →
        (site.run events).get name now identity = .ok (some page.template)) := by
  obtain ⟨before, now', identity', after, hevents, hpath, hcompile⟩ := hnew.run_page hpage
  obtain ⟨htemplate, hold, -, -⟩ := Page.compile_eq_ok.1 hcompile
  obtain ⟨newest, hnewest⟩ := exists_newestModification hfiles
  have hne := newestModification_ne hold hnewest
  have hchanged := page.hasChanged_immediate
    (o := (site.run events).occasion now identity) hnewest
  rw [← hpolicy] at hchanged
  have hidentity : fresh.identity = identity := by
    obtain ⟨s, c, -, -, rfl⟩ := Template.ofFile_eq_ok.1 hfresh
    rfl
  refine ⟨hidentity, before, now', identity', after, hevents, htemplate, fun hmoved => ?_,
    fun hmoved => ?_⟩
  · have hrenewed : (newest != page.modified) = true := by simpa using hne.2 hmoved
    rw [hrenewed] at hchanged
    obtain ⟨compiled, hcompiled, rfl⟩ :=
      Page.exists_compile (hnew.cwd_occasion events now identity) hfresh
    rw [← site.evaluator_run events, ← site.rootdir_run events] at hcompiled
    exact Cache.get_eq_some.2 (Cache.lookup_renewed hpage hchanged hcompiled)
  · have hkept : (newest != page.modified) = false := by simpa using mt hne.1 hmoved
    rw [hkept] at hchanged
    exact Cache.get_eq_some.2 (Cache.lookup_kept hpage hchanged)

/-- A page is got, and then its header is written. -/
def reheading : List Event := [.get "page" 10 1, .change reheaded.entries]

theorem get_renews_reheaded :
    ∃ page fresh, (headed.run reheading).cache.page? "page" = some page ∧
      Template.ofFile headed.cache.evaluator (headed.run reheading).files 2 page.path
        (some headed.cache.rootdir) = .ok fresh ∧
      fresh.identity = 2 ∧
      ∃ before now' identity' after,
        reheading = before ++ .get "page" now' identity' :: after ∧
        Template.ofFile headed.cache.evaluator (headed.run before).files identity' page.path
          (some headed.cache.rootdir) = .ok page.template ∧
        (Overtakes (headed.run before).files (headed.run reheading).files page.template.paths →
          (headed.run reheading).get "page" 30 2 = .ok (some fresh)) ∧
        (¬Overtakes (headed.run before).files (headed.run reheading).files page.template.paths →
          (headed.run reheading).get "page" 30 2 = .ok (some page.template)) := by
  have hpaths : ((headed.run reheading).cache.page? "page").map
      (fun page => (page.path, page.template.paths)) =
      some (⟨"/w/page".toList⟩, [⟨"/w/page".toList⟩, ⟨"/w/header".toList⟩]) := by
    decide +kernel
  obtain ⟨page, hpage, hfields⟩ := Option.map_eq_some_iff.1 hpaths
  obtain ⟨hpath, hpaths⟩ := Prod.mk.inj hfields
  have hfresh : Template.ofFile headed.cache.evaluator (headed.run reheading).files 2
      ⟨"/w/page".toList⟩ (some headed.cache.rootdir) = .ok ⟨2, ⟨"/w/page",
        [.rootdir ⟨"/w".toList⟩, .workdir ⟨"/w".toList⟩, .workdir ⟨"/w".toList⟩, .emit "N",
          .workdir ⟨"/w".toList⟩, .emit "body"],
        [⟨"/w/page".toList⟩, ⟨"/w/header".toList⟩]⟩, .idle⟩ := by
    decide +kernel
  have htimes : ∀ p ∈ ([⟨"/w/page".toList⟩, ⟨"/w/header".toList⟩] : List Path),
      ((headed.run reheading).files.modified p).isOk = true := by
    decide +kernel
  rw [← hpath] at hfresh
  refine ⟨page, _, hpage, hfresh, get_renews headed_isNew (by decide +kernel) hpage hfresh ?_⟩
  intro p hp
  rw [hpaths] at hp
  have hok := htimes p hp
  cases htime : (headed.run reheading).files.modified p with
  | ok time => exact ⟨time, rfl⟩
  | error fault =>
    rw [htime] at hok
    cases hok

/-- A page is got, and then it is written anew, at the time that its header has. -/
def shadowing : List Event :=
  [.get "page" 10 1,
    .change (headed.files.set [['w'], "page".toList]
      (.file (Utf8.encode "[<header]new".toList) 2)).entries]

/-- The page has another time than when it was compiled, all its files are there, and it compiles.
Still the template that is got is the first one. -/
theorem get_renews_shadowed :
    (headed.run shadowing).cache.policy = .immediate ∧
      ((headed.run shadowing).cache.page? "page").map (·.template.paths) =
        some [⟨"/w/page".toList⟩, ⟨"/w/header".toList⟩] ∧
      headed.files.modified ⟨"/w/page".toList⟩ = .ok 1 ∧
      (headed.run shadowing).files.modified ⟨"/w/page".toList⟩ = .ok 2 ∧
      (headed.run shadowing).files.modified ⟨"/w/header".toList⟩ = .ok 2 ∧
      (Template.ofFile .idle (headed.run shadowing).files 2 ⟨"/w/page".toList⟩
        (some ⟨"/w".toList⟩)).isOk = true ∧
      ((headed.run shadowing).get "page" 30 2).map (·.map (·.identity)) = .ok (some 1) := by
  refine ⟨by decide +kernel, by decide +kernel, by decide +kernel, by decide +kernel,
    by decide +kernel, by decide +kernel, by decide +kernel⟩

end Site

end BracketTemplate
