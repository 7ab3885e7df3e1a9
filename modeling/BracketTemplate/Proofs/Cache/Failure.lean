import Mathlib
import BracketTemplate.Proofs.Cache.Policy

/-!
# Failures leave the cache alone

Getting a page can fail on its name, on the times of its files, in reading, in the compile of any
file that it includes, and in the check of the evaluator.  On each of these ways the names and
templates in the cache stay as they were, and a template that is got touches the page of its name
only (`Site.get_failure`).

So a page whose compile fails keeps its template, for as long as getting it gives none.  Its time of
modification stays that of the template, and the next look that finds another time compiles its file
again.
-/

namespace BracketTemplate

namespace Site

variable {site : Site} {before events : List Event} {name : String} {page : Page} {now : Int}
  {identity : Nat}

/-- Where getting a page gives no template, none has been made. -/
lemma not_renews_of_get (h : ∀ t, site.get name now identity ≠ .ok (some t)) (fresh : Page) :
    ¬site.Renews name now identity fresh :=
  fun hrenews => h _ (Cache.get_eq_some.2 hrenews.renewed.template)

/-- Whenever the page of a name is got in the course of some events, no template is. -/
def Fruitless (site : Site) (name : String) (events : List Event) : Prop :=
  ∀ before now identity after, events = before ++ .get name now identity :: after →
    ∀ t, (site.run before).get name now identity ≠ .ok (some t)

/-- A page that cannot be got is not renewed. -/
lemma Fruitless.quiet (h : site.Fruitless name events) : site.Quiet name events :=
  fun between now identity rest hsplit => not_renews_of_get (h between now identity rest hsplit)

/-- A look that finds another time than that of the template compiles the file of the page. -/
lemma remakes_of_newest (hcwd : site.files.cwdPath.hasParentSegment = false)
    (hpage : site.cache.page? name = some page) (hpolicy : site.cache.policy ≠ .never)
    {newest : Option Int} (hnewest : site.files.IsNewest page.template.paths newest)
    (hne : newest ≠ page.modified)
    (hold : ∀ window latest, site.cache.policy = .debounced window → newest = some latest →
      latest + window ≤ now) (identity : Nat) :
    site.Remakes name page.path now identity := by
  have hunique : ∀ other, site.files.IsNewest page.template.paths other → other = newest := by
    intro other hother
    have hsame := (newestModification_iff.2 hother).symm.trans (newestModification_iff.2 hnewest)
    exact Except.ok.inj hsame
  have hnot : ¬site.Keeps page now := by
    intro hkeeps
    cases hkeeps with
    | never hnever => exact hpolicy hnever
    | unchanged _ hsame => exact hne (hunique _ hsame).symm
    | recent hdebounced hlatest hrecent =>
      have hpast := hold _ _ hdebounced (hunique _ hlatest).symm
      omega
  have hfiles : ∀ p ∈ page.template.paths, ∃ time, site.files.modified p = .ok time := by
    intro p hp
    obtain ⟨time, -, htime, -, -⟩ := hnewest.latest p hp
    exact ⟨time, htime⟩
  exact remakes_of_compiles hcwd
    (.changed hpage (hasChanged_of_not_keeps hnot (.inr hfiles) identity))

/-- **Getting a page that fails changes nothing but the time of a look.**  One that gives a template
touches the page of its name only.  As long as no template of a page is got, the one that is there
stays, and its file is compiled by the next look that finds another time of modification. -/
theorem get_failure (hnew : site.IsNew) (before : List Event) (name : String) (now : Int)
    (identity : Nat) :
    ((∀ t, (site.run before).get name now identity ≠ .ok (some t)) →
      Cache.Untouched name (site.run before).cache
        (site.run (before ++ [.get name now identity])).cache) ∧
    (∀ t, (site.run before).get name now identity = .ok (some t) →
      (∀ other, other ≠ name →
        (site.run (before ++ [.get name now identity])).cache.page? other =
          (site.run before).cache.page? other) ∧
      (∃ page, (site.run (before ++ [.get name now identity])).cache.page? name = some page ∧
        page.template = t) ∧
      (site.run (before ++ [.get name now identity])).cache.names =
        if name ∈ (site.run before).cache.names then (site.run before).cache.names
        else (site.run before).cache.names ++ [name]) ∧
    ∀ page later, (site.run before).cache.page? name = some page →
      (site.run before).Fruitless name later →
      (∃ time, (site.run (before ++ later)).cache.page? name =
        some { page with checkedAt := time }) ∧
      ∀ newest, (site.run (before ++ later)).files.IsNewest page.template.paths newest →
        newest ≠ page.modified → (site.run (before ++ later)).cache.policy ≠ .never →
        (∀ window latest, (site.run (before ++ later)).cache.policy = .debounced window →
          newest = some latest → latest + window ≤ now) →
        (site.run (before ++ later)).Remakes name page.path now identity := by
  have hstep : (site.run (before ++ [.get name now identity])).cache =
      ((site.run before).cache.lookup ((site.run before).occasion now identity) name).2 := by
    rw [run_append, run_cons, run_nil, step, Cache.get_snd]
  refine ⟨fun hfails => ?_, fun t ht => ?_, fun page later hpage hfruitless => ?_⟩
  · rw [hstep]
    exact Cache.untouched (not_renews_of_get hfails)
  · rw [hstep]
    have hlookup := Cache.get_eq_some.1 ht
    refine ⟨fun other hother => Cache.page?_lookup_of_ne _ _ hother,
      Cache.exists_page_of_lookup hlookup, ?_⟩
    rcases Cache.lookup_fate ((site.run before).occasion now identity) (site.run before).cache name
      with ⟨fresh, -, hrenewed⟩ | ⟨-, huntouched, hfound⟩
    · exact hrenewed.names
    · obtain ⟨page, hpage, -⟩ := hfound t hlookup
      have hmem : name ∈ (site.run before).cache.names :=
        Cache.mem_names_iff.2 (by rw [hpage]; exact Option.some_ne_none page)
      rw [huntouched.names, if_pos hmem]
  · obtain ⟨time, hkept⟩ := hfruitless.quiet.page?_run
    rw [← run_append, hpage] at hkept
    refine ⟨⟨time, hkept⟩, fun newest hnewest hne hpolicy hold => ?_⟩
    exact remakes_of_newest (hnew.cwd_occasion (before ++ later) now identity) hkept hpolicy hnewest
      hne hold identity

/-- The files of a page that has been written anew. -/
def rewritten (text : String) (time : Int) : List (Place × FileEntry) :=
  (headed.files.set [['w'], "page".toList] (.file (Utf8.encode text.toList) time)).entries

/-- The page is written anew with an include of what is not there, cannot be got, and is written
anew once more. -/
def mending : List Event :=
  [.change (rewritten "[<footer]body" 30), .get "page" 40 2, .change (rewritten "mended" 50)]

lemma fruitless_mending : (headed.run [.get "page" 10 1]).Fruitless "page" mending := by
  have hfails : (((headed.run [.get "page" 10 1]).run [.change (rewritten "[<footer]body" 30)]).get
      "page" 40 2).isOk = false := by
    decide +kernel
  intro before now identity after hsplit t ht
  rcases before with _ | ⟨first, _ | ⟨second, _ | ⟨third, rest⟩⟩⟩
  · cases hsplit
  · cases hsplit
    rw [ht] at hfails
    cases hfails
  · cases hsplit
  · simp [mending] at hsplit

/-- A page that is not there leaves the cache alone, and one that is broken keeps its template until
it is mended. -/
theorem get_failure_mended :
    Cache.Untouched "other" (headed.run [.get "page" 10 1]).cache
        (headed.run ([.get "page" 10 1] ++ [.get "other" 60 3])).cache ∧
      ∃ page, (headed.run [.get "page" 10 1]).cache.page? "page" = some page ∧
        (headed.run ([.get "page" 10 1] ++ mending)).Remakes "page" page.path 60 3 := by
  constructor
  · have hnone : (headed.run [.get "page" 10 1]).get "other" 60 3 = .ok none := by decide +kernel
    refine (get_failure headed_isNew [.get "page" 10 1] "other" 60 3).1 fun t ht => ?_
    rw [hnone] at ht
    cases ht
  · have hfields : ((headed.run [.get "page" 10 1]).cache.page? "page").map
        (fun page => (page.template.paths, page.modified)) =
        some ([⟨"/w/page".toList⟩, ⟨"/w/header".toList⟩], some 2) := by
      decide +kernel
    have hnewest : newestModification (headed.run ([.get "page" 10 1] ++ mending)).files
        [⟨"/w/page".toList⟩, ⟨"/w/header".toList⟩] = .ok (some 50) := by
      decide +kernel
    have hpolicy : (headed.run ([.get "page" 10 1] ++ mending)).cache.policy = .immediate := by
      decide +kernel
    obtain ⟨page, hpage, hfields⟩ := Option.map_eq_some_iff.1 hfields
    obtain ⟨hpaths, hmodified⟩ := Prod.mk.inj hfields
    rw [← hpaths] at hnewest
    have hmends := ((get_failure headed_isNew [.get "page" 10 1] "page" 60 3).2.2 page mending hpage
      fruitless_mending).2
    refine ⟨page, hpage, hmends (some 50) (newestModification_iff.1 hnewest) ?_ ?_ ?_⟩
    · rw [hmodified]
      exact nofun
    · rw [hpolicy]
      exact nofun
    · rw [hpolicy]
      exact nofun

end Site

end BracketTemplate
