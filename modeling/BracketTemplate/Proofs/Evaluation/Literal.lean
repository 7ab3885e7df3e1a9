import Mathlib
import BracketTemplate.Proofs.Evaluation.Output
import BracketTemplate.Proofs.Evaluation.Straight
import BracketTemplate.Proofs.Grammar.Literal
import BracketTemplate.Proofs.Inclusion.Single
import BracketTemplate.Proofs.Script.Globals

/-!
# Literal templates

A source that opens nothing becomes a program of two directories and perhaps a text.  The script
that it is lowered to shows the kinds of these instructions and nothing of what is in them
(`Program.exists_chunk`), so it can be parsed whatever the source says, and run in an environment
that gives no name of its own to anything.  What comes of it is the text of the source
(`Scene.render_literal`).
-/

namespace BracketTemplate

open Grammar

variable {σ : Type}

/-! ## The script of a program -/

namespace Script

/-- The host functions for instructions are there from the start. -/
lemma Heap.globalVar_initial (root : Path) (kind : InstructionKind) :
    (Heap.initial root).globalVar kind.spelling = .builtin (.host kind.caller) :=
  globalVar_host root (by cases kind <;> decide)

/-- Whether a script is one function without parameters that calls instructions of certain kinds,
one after another. -/
def parsesTo (kinds : List InstructionKind) (script : Bytes) : Bool :=
  match Parser.ofScript script with
  | .ok proto => proto.parameters == 0 && callsFrom 0 kinds proto.body
  | .error _ => false

end Script

lemma Program.exists_chunk {program : Program} {kinds : List Script.InstructionKind}
    (h : Script.parsesTo kinds (Utf8.encode program.lower) = true) (name : String) :
    ∃ chunk, program.chunk name = .ok chunk ∧ chunk.proto.parameters = 0 ∧
      Script.callsFrom 0 kinds chunk.proto.body = true := by
  unfold Script.parsesTo at h
  split at h
  · next proto hproto =>
    obtain ⟨hparameters, hbody⟩ := Bool.and_eq_true_iff.1 h
    exact ⟨_, Program.chunk_of_ofScript hproto name, beq_iff_eq.1 hparameters, hbody⟩
  · cases h

/-- The script of a literal template calls the instructions that are there. -/
lemma Program.parsesTo_literal (rootdir workdir : Path) (text : List Char) :
    ∃ kinds, (.rootdir rootdir :: .workdir workdir :: emitted text).Forall₂
        (fun i kind => i.kind? = some kind) kinds ∧ kinds.length ≤ 3 ∧
      Script.parsesTo kinds
        (Utf8.encode (lower (.rootdir rootdir :: .workdir workdir :: emitted text))) = true := by
  unfold emitted
  split
  · have hparses : Script.parsesTo [.rootdir, .workdir]
        (Utf8.encode (lower [.rootdir ⟨[]⟩, .workdir ⟨[]⟩])) = true := by decide +kernel
    exact ⟨[.rootdir, .workdir], .cons rfl (.cons rfl .nil), by decide, hparses⟩
  · have hparses : Script.parsesTo [.rootdir, .workdir, .text]
        (Utf8.encode (lower [.rootdir ⟨[]⟩, .workdir ⟨[]⟩, .emit ""])) = true := by decide +kernel
    exact ⟨[.rootdir, .workdir, .text], .cons rfl (.cons rfl (.cons rfl .nil)), by decide, hparses⟩

/-- A source that opens nothing compiles to the program of its text, when an evaluator accepts
that. -/
lemma Source.compile_literal {s : Source} (h : Guarded s.text) (tree : FileTree)
    {accepts : String → Program → Except TemplateError Unit}
    (haccepts : accepts s.name
      (.rootdir s.rootdir :: .workdir s.workdir :: emitted (bare s.text)) = .ok ()) :
    ∃ c, s.compile accepts tree = .ok c ∧
      c.program = .rootdir s.rootdir :: .workdir s.workdir :: emitted (bare s.text) := by
  have hsegment (segment : Segment) (hmem : segment ∈ segments s.text) :
      segment.isInclusion = false ∧ segment ≠ .unclosed := by
    rw [segments_guarded h] at hmem
    split at hmem
    · cases hmem
    · cases List.mem_singleton.1 hmem
      exact ⟨rfl, nofun⟩
  obtain ⟨c, hc, hprogram⟩ :=
    (s.compile_single tree fun segment hmem => (hsegment segment hmem).1).1
    fun hmem => (hsegment _ hmem).2 rfl
  obtain ⟨d, hinline, -, rfl⟩ := s.compile_eq_ok.1 hc
  rw [instructions_guarded h] at hprogram
  change d.program = _ at hprogram
  rw [← hprogram] at haccepts ⊢
  exact ⟨_, s.compile_eq_ok.2 ⟨d, hinline, haccepts, rfl⟩, rfl⟩

namespace Scene

/-- **A template without code is evaluated** by carrying out its instructions in turn, in an
environment without bindings and functions. -/
theorem evaluate_of_parsesTo {t : Template} (hevaluator : t.evaluator = .script)
    {kinds : List Script.InstructionKind}
    (hkinds : t.program.Forall₂ (fun i kind => i.kind? = some kind) kinds)
    (hlength : 3 * kinds.length + 2 < maxSteps)
    (hparses : Script.parsesTo kinds (Utf8.encode t.program.lower) = true) {s : Scene σ}
    (hbindings : s.env.bindings = []) (hfunctions : s.env.functions = []) :
    s.evaluate t = (.ok (), (t.program.foldl carryOut (s.onEnv (·.enter t))).onEnv fun env =>
      { env with running := s.env.running }) := by
  obtain ⟨chunk, hchunk, hparameters, hbody⟩ := Program.exists_chunk hparses t.name
  have hmachine : (s.onEnv (·.enter t)).machine t.program chunk =
      .ofChunk chunk (Script.Heap.initial ((s.onEnv (·.enter t)).scriptRoot t.program)) := by
    rw [machine, Environment.functionNames,
      show (s.onEnv (·.enter t)).env.bindings = [] from hbindings,
      show (s.onEnv (·.enter t)).env.functions = [] from hfunctions]
    rfl
  refine evaluate_of_drive hevaluator hchunk ?_
  rw [hmachine]
  exact drive_ofChunk hkinds hlength hparameters hbody (Script.Heap.globalVar_initial _) rfl _

/-- What is carried out for a literal template: the directories are set, and the text is written. -/
lemma foldl_carryOut_literal (rootdir workdir : Path) (text : List Char) (t : Template)
    (s : Scene σ) :
    ((.rootdir rootdir :: .workdir workdir :: emitted text : Program).foldl carryOut
      (s.onEnv (·.enter t))).onEnv (fun env => { env with running := s.env.running }) =
      s.onEnv fun env => { env with
        output := env.output ++ String.ofList text
        rootdir := some rootdir
        workdirSet := some workdir } := by
  unfold emitted
  split
  · next hnil =>
    rw [hnil, String.ofList_nil]
    simp only [onEnv, String.append_empty]
    rfl
  · rfl

/-- **A literal template renders to itself.**  When every opening bracket of a source has a
backslash right before it, the source compiles to its two directories and at most one text.
Whatever the output has been and however texts are escaped, in an environment without bindings and
functions it renders to the source without the backslashes right before its brackets, and adds that
to the output.  So a source in which no bracket opens and no closing one has a backslash before it
is left as it is. -/
theorem render_literal (tree : FileTree) (identity : Nat) (s : Source) (h : Guarded s.text) :
    ∃ t, Template.ofSource .script tree identity s = .ok t ∧
      t.program = [.rootdir s.rootdir, .workdir s.workdir] ++ emitted (bare s.text) ∧
      ∀ scene : Scene σ, scene.env.bindings = [] → scene.env.functions = [] →
        scene.render t = (.ok (String.ofList (bare s.text)), scene.onEnv fun env =>
          { env with
            output := env.output ++ String.ofList (bare s.text)
            rootdir := some s.rootdir
            workdirSet := some s.workdir }) ∧
        ('[' ∉ s.text → ¬ ['\\', ']'] <:+: s.text →
          (scene.render t).1 = .ok (String.ofList s.text)) := by
  obtain ⟨kinds, hkinds, hlength, hparses⟩ :=
    Program.parsesTo_literal s.rootdir s.workdir (bare s.text)
  obtain ⟨chunk, hchunk, -⟩ := Program.exists_chunk hparses s.name
  have haccepts : Evaluator.script.accepts s.name
      (.rootdir s.rootdir :: .workdir s.workdir :: emitted (bare s.text)) = .ok () := by
    show Program.check _ _ = _
    rw [Program.check, hchunk]
  obtain ⟨c, hc, hprogram⟩ := Source.compile_literal h tree haccepts
  have hofSource : Template.ofSource .script tree identity s = .ok ⟨identity, c, .script⟩ := by
    rw [Template.ofSource, hc]
    rfl
  refine ⟨_, hofSource, hprogram, fun scene hbindings hfunctions => ?_⟩
  have hlong : 9 + 2 < maxSteps := by decide
  rw [← hprogram] at hkinds hparses
  have heval := evaluate_of_parsesTo (t := ⟨identity, c, .script⟩) rfl hkinds (by omega) hparses
    hbindings hfunctions
  rw [show Template.program ⟨identity, c, .script⟩ = _ from hprogram,
    foldl_carryOut_literal] at heval
  have houtput : (scene.evaluate ⟨identity, c, .script⟩).2.env.output =
      scene.env.output ++ String.ofList (bare s.text) := by
    rw [heval]
    rfl
  have hrender := render_eq _ houtput
  rw [heval] at hrender
  refine ⟨hrender, fun hopen hclose => ?_⟩
  rw [hrender, bare_eq_self hopen hclose]
  rfl

/-- A source with brackets that have backslashes before them, and with a closing one that has
none. -/
def bracketed : Source := ⟨"a\\[0\\] = \\\\[ 'b' ]\n".toList, ⟨['/', 'w']⟩, ⟨['/', 'w']⟩, none⟩

/-- A scene without bindings and functions, and with some output. -/
def unnamed : Scene Unit where
  env := { (default : Environment Unit) with output := "before" }
  world := { files := ⟨[], [], 0⟩, now := 0, state := () }

/-- Only the backslashes right before brackets are taken away, one before each. -/
theorem render_literal_bracketed :
    Guarded bracketed.text ∧ ∃ t, Template.ofSource .script ⟨[], [], 0⟩ 0 bracketed = .ok t ∧
      (unnamed.render t).1 = .ok "a[0] = \\[ 'b' ]\n" := by
  have hguarded : Guarded bracketed.text := by decide +kernel
  obtain ⟨t, ht, -, hrender⟩ := render_literal ⟨[], [], 0⟩ 0 bracketed hguarded
  refine ⟨hguarded, t, ht, ?_⟩
  rw [(hrender unnamed rfl rfl).1]
  exact congrArg Except.ok (by decide +kernel)

end Scene

end BracketTemplate
