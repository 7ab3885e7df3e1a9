import Mathlib
import BracketTemplate.Evaluation.Check
import BracketTemplate.Proofs.Grammar.Print
import BracketTemplate.Proofs.Inclusion.Inline
import BracketTemplate.Proofs.Scanning.Program

/-!
# Sources without static includes

A source that includes nothing compiles on its own: no file is read, and the only thing that can go
wrong is a region that never ends (`compile_single`).  With the bracket grammar this says where each
of its regions ends and what its code is (`compile_regions`), and with the round trip of the grammar
that every list of segments that can be printed is the program of the source that is printed from it
(`compile_print`).
-/

namespace BracketTemplate

open Grammar

namespace Source

variable (s : Source)

/-- Where nothing is included it does not matter how includes are followed. -/
lemma perform_congr {lexemes : List Lexeme}
    (h : ∀ segment ∈ lexemes.map (·.segment), segment.isInclusion = false)
    (follow other : List Char → Position → Draft → Except TemplateError Draft) (here : Position)
    (c : Cursor) (d : Draft) :
    s.perform follow here c d lexemes = s.perform other here c d lexemes := by
  induction lexemes generalizing here c d with
  | nil => rfl
  | cons lexeme rest ih =>
    have ih := ih fun segment hmem => h segment (List.mem_cons_of_mem _ hmem)
    have hsegment := h lexeme.segment List.mem_cons_self
    obtain ⟨segment, n⟩ := lexeme
    cases segment with
    | literal text => exact ih _ _ _
    | region kind left code right => exact ih _ _ _
    | inclusion left name right => cases hsegment
    | unclosed => rfl

/-- Where includes can always be followed, the only error is that of a region that never ends. -/
lemma perform_error {follow : List Char → Position → Draft → Except TemplateError Draft}
    (hf : ∀ name here d, ∃ d', follow name here d = .ok d') {lexemes : List Lexeme}
    {here : Position} {c : Cursor} {d : Draft} {e : TemplateError}
    (h : s.perform follow here c d lexemes = .error e) :
    ∃ place, e = s.errorAt place .unclosed := by
  induction lexemes generalizing here c d with
  | nil => cases h
  | cons lexeme rest ih =>
    obtain ⟨segment, n⟩ := lexeme
    cases segment with
    | literal text => exact ih h
    | region kind left code right => exact ih h
    | inclusion left name right =>
      obtain ⟨entered, hentered⟩ := hf name here (d.calm.trimIf left)
      simp only [perform, hentered] at h
      exact ih h
    | unclosed =>
      cases h
      exact ⟨_, rfl⟩

/-- **A source that includes nothing** compiles to the instructions of its segments, unless one of
its regions never ends. -/
theorem compile_single (tree : FileTree)
    (h : ∀ segment ∈ segments s.text, segment.isInclusion = false) :
    (.unclosed ∉ segments s.text → ∃ c, s.compile Program.acceptAll tree = .ok c ∧
      c.program = .rootdir s.rootdir :: .workdir s.workdir ::
        instructions false (segments s.text)) ∧
    (.unclosed ∈ segments s.text → ∃ place,
      s.compile Program.acceptAll tree = .error (s.errorAt place .unclosed)) := by
  have hinline : inline tree (tree.files.length + 1) s.file.toList s s.opening =
      s.perform marked .start (.start s.text) s.opening (read s.text) :=
    s.perform_congr h _ marked _ _ _
  constructor
  · intro hunclosed
    obtain ⟨d, hd⟩ := s.perform_ok marked hunclosed (fun _ _ _ _ _ _ => ⟨_, rfl⟩) .start
      (.start s.text) s.opening
    obtain ⟨body, hfilled, hprogram⟩ := s.perform_filled (fills_marked s.opening.directories)
      (isChain_segments s.text) rfl (fun _ _ _ => by rw [opening_eq]; rfl) hd
    refine ⟨_, s.compile_eq_ok.2 ⟨d, hinline.trans hd, rfl, rfl⟩, ?_⟩
    change d.program = _
    rw [hprogram, hfilled.eq_self, opening_eq]
    exact congrArg _ (carried_nil _ _)
  · intro hunclosed
    cases hperform : s.perform marked .start (.start s.text) s.opening (read s.text) with
    | ok d => exact absurd hunclosed (s.perform_unclosed hperform)
    | error e =>
      obtain ⟨place, rfl⟩ := s.perform_error (fun _ _ _ => ⟨_, rfl⟩) hperform
      refine ⟨place, ?_⟩
      rw [compile_eq, hinline, hperform]

/-- **A region ends where the bracket grammar says.**  A source that includes nothing fails to
compile exactly where some region has no bracket that ends it, whatever brackets stand in its text.
A region goes up to that bracket, a dash before it trims, a run of backslashes stands for half as
many, and an odd one also escapes what stands behind it. -/
theorem compile_regions (tree : FileTree)
    (h : ∀ segment ∈ segments s.text, segment.isInclusion = false) :
    ((∃ e, s.compile Program.acceptAll tree = .error e ∧ e.isCompile = true) ↔
      .unclosed ∈ segments s.text) ∧
    (.unclosed ∉ segments s.text → ∃ c, s.compile Program.acceptAll tree = .ok c ∧
      c.program = .rootdir s.rootdir :: .workdir s.workdir ::
        instructions false (segments s.text)) ∧
    (∀ text opening, Delimiter.include? text = none → opening? text = some opening →
      (∀ inside rest, Ends (text.drop opening.length) inside rest →
        segments text =
          .region opening.region opening.trim
            (unescape (if dashed inside then inside.dropLast else inside)) (dashed inside) ::
            segments rest) ∧
      ((¬ ∃ inside rest, Ends (text.drop opening.length) inside rest) →
        segments text = [.unclosed]) ∧
      ∀ code rest, text.drop opening.length = code ++ ']' :: rest → '\\' ∉ code → Balanced code →
        code.getLast? ≠ some '-' →
          segments text = .region opening.region opening.trim code false :: segments rest) ∧
    (∀ n code c, c ≠ '\\' →
      unescape (List.replicate n '\\' ++ c :: code) =
        List.replicate (n / 2) '\\' ++
          (if n % 2 = 1 ∧ c ≠ '[' ∧ c ≠ ']' then ['\\', c] else [c]) ++ unescape code) ∧
    ∀ n, unescape (List.replicate (2 * n) '\\') = List.replicate n '\\' := by
  obtain ⟨hok, herror⟩ := s.compile_single tree h
  refine ⟨⟨?_, ?_⟩, hok, fun text opening hinclude hopening => ⟨?_, ?_, ?_⟩, ?_, fun n => ?_⟩
  · rintro ⟨e, he, -⟩
    by_contra hunclosed
    obtain ⟨c, hc, -⟩ := hok hunclosed
    rw [hc] at he
    cases he
  · intro hunclosed
    obtain ⟨place, hplace⟩ := herror hunclosed
    exact ⟨_, hplace, rfl⟩
  · exact (segments_ends hinclude hopening).1
  · exact (segments_ends hinclude hopening).2
  · exact fun code rest => segments_balanced hinclude hopening
  · exact fun n code c hc => unescape_run n hc code
  · simpa using unescape_even n []

theorem compile_regions_nested :
    ∃ c, compile Program.acceptAll ⟨[], [], 0⟩
        ⟨"a]b[= t[i] .. '\\]' -]\nc".toList, ⟨['/']⟩, ⟨['/']⟩, none⟩ = .ok c ∧
      c.program = [.rootdir ⟨['/']⟩, .workdir ⟨['/']⟩, .emit "a]b", .escaped "t[i] .. ']' ",
        .emit "c"] := by
  obtain ⟨c, hc, hprogram⟩ := (compile_regions
    ⟨"a]b[= t[i] .. '\\]' -]\nc".toList, ⟨['/']⟩, ⟨['/']⟩, none⟩ ⟨[], [], 0⟩
    (by decide +kernel)).2.1 (by decide +kernel)
  exact ⟨c, hc, hprogram.trans (by decide +kernel)⟩

/-- **Compiling undoes printing.**  For every list of segments that can be printed, in every order
that can, the printed source compiles, and its program is the instructions of the list behind the
two directories. -/
theorem compile_print (tree : FileTree) (workdir rootdir : Path) (file : Option Path)
    (segs : List Segment) (h : ∀ segment ∈ segs, segment.printable = true)
    (hfits : segs.IsChain fun before behind => before.fits behind = true) :
    ∃ c, compile Program.acceptAll tree ⟨segs.flatMap Segment.print, workdir, rootdir, file⟩ =
      .ok c ∧
      c.program = .rootdir rootdir :: .workdir workdir :: instructions false segs := by
  have hsegments := segments_print h hfits
  have hread : ∀ segment ∈ segs.map Segment.readBack,
      segment.isInclusion = false ∧ segment ≠ .unclosed := by
    intro segment hmem
    obtain ⟨printed, hprinted, rfl⟩ := List.mem_map.1 hmem
    have := h printed hprinted
    cases printed <;> simp_all [Segment.printable, Segment.readBack, Segment.isInclusion]
  obtain ⟨c, hc, hprogram⟩ :=
    (compile_single ⟨segs.flatMap Segment.print, workdir, rootdir, file⟩ tree fun segment hmem =>
      (hread segment (hsegments ▸ hmem)).1).1 fun hmem => (hread _ (hsegments ▸ hmem)).2 rfl
  refine ⟨c, hc, ?_⟩
  rw [hprogram, hsegments, instructions_readBack h]

theorem compile_print_listing :
    ∃ c, compile Program.acceptAll ⟨[], [], 0⟩
        ⟨[Segment.literal "a[0] ".toList, .region .escaped true "t[\"\\\"]".toList true,
            .literal "\nb".toList, .region .comment false " gone ".toList false,
            .region .statement false "x = 1".toList false].flatMap Segment.print,
          ⟨['/']⟩, ⟨['/']⟩, none⟩ = .ok c ∧
      c.program = [.rootdir ⟨['/']⟩, .workdir ⟨['/']⟩, .emit "a[0]", .escaped "t[\"\\\"]",
        .emit "b", .statement "x = 1"] := by
  obtain ⟨c, hc, hprogram⟩ := compile_print ⟨[], [], 0⟩ ⟨['/']⟩ ⟨['/']⟩ none
    [Segment.literal "a[0] ".toList, .region .escaped true "t[\"\\\"]".toList true,
      .literal "\nb".toList, .region .comment false " gone ".toList false,
      .region .statement false "x = 1".toList false] (by decide +kernel) (by decide +kernel)
  exact ⟨c, hc, hprogram.trans (by decide +kernel)⟩

end Source

end BracketTemplate
