import Mathlib
import BracketTemplate.Proofs.Cache.Run
import BracketTemplate.Proofs.Inclusion.Declared

/-!
# Pages have absolute paths

The path by which a template in a cache knows its file is absolute.  Getting pages keeps it so
(`Cache.Rooted.get`), and so it is in every cache that has been made and used, whatever has happened
to the files in between (`Site.IsNew.rooted_run`).
-/

namespace BracketTemplate

/-- The file of a page that has been compiled is absolute. -/
lemma Page.compile_head {o : Occasion} {evaluator : Evaluator}
    {rootdir path : Path} {page : Page} (h : Page.compile o evaluator rootdir path = .ok page) :
    ∃ file, page.template.paths.head? = some file ∧ file.isAbsolute = true :=
  ⟨_, Template.ofFile_head (Page.compile_eq_ok.1 h).1,
    Path.isAbsolute_absoluteFrom _ (Source.isAbsolute_cwdPath _)⟩

namespace Cache

/-- The files of the templates are absolute. -/
def Rooted (c : Cache) : Prop :=
  ∀ name page, c.page? name = some page →
    ∃ file, page.template.paths.head? = some file ∧ file.isAbsolute = true

variable {c : Cache}

/-- **Looking up a page keeps the paths absolute**, and gives a template with such a path. -/
theorem Rooted.lookup (h : c.Rooted) (o : Occasion) (name : String) :
    (c.lookup o name).2.Rooted ∧ ∀ t, (c.lookup o name).1 = .ok t →
      ∃ file, t.paths.head? = some file ∧ file.isAbsolute = true := by
  have hlooked := lookup_looked o c name
  refine ⟨fun other page hpage => ?_, fun t ht => ?_⟩
  · rcases page?_of_lookup hpage with ⟨before, hbefore, time, rfl⟩ | ⟨-, -, hcompile⟩
    · exact h other before hbefore
    · exact Page.compile_head hcompile
  · generalize c.lookup o name = result at ht hlooked
    cases hlooked with
    | compiled _ _ hcompile =>
      cases ht
      exact Page.compile_head hcompile
    | kept hpage =>
      cases ht
      exact h _ _ hpage
    | renewed _ _ hcompile =>
      cases ht
      exact Page.compile_head hcompile
    | refused | failed | unseen | stale => cases ht

/-- So does getting one. -/
theorem Rooted.get (h : c.Rooted) (o : Occasion) (name : String) :
    (c.get o name).2.Rooted ∧ ∀ t, (c.get o name).1 = .ok (some t) →
      ∃ file, t.paths.head? = some file ∧ file.isAbsolute = true := by
  rw [get_snd]
  exact ⟨(h.lookup o name).1, fun t ht => (h.lookup o name).2 t (get_eq_some.1 ht)⟩

end Cache

/-- **The pages of a cache in use have absolute paths.** -/
theorem Site.IsNew.rooted_run {site : Site} (hnew : site.IsNew) (events : List Event) :
    (site.run events).cache.Rooted := by
  intro name page hpage
  obtain ⟨before, now, identity, after, -, -, hcompile⟩ := hnew.run_page hpage
  have hhead := Page.compile_head hcompile
  exact hhead

end BracketTemplate
