import Mathlib
import BracketTemplate.Proofs.Evaluation.Output
import BracketTemplate.Proofs.Evaluation.Printing
import BracketTemplate.Proofs.Inclusion.Chain
import BracketTemplate.Proofs.Inclusion.Splice
import BracketTemplate.Text.Html

/-!
# Templates that print literals

A source is plain when neither it nor what it includes runs a statement, or prints anything but
literals.  Then its program is plain (`Source.isPlain_of_compile`), and the script of that is one
call of a global function for each instruction.

The calls are followed one after another as in programs without code: each has its instruction
carried out within five steps, as long as the global functions that the instruction relies on are
those from the start (`Scene.leadsWithin_calls`).  A script that is accepted has few enough lines to
be done before it is given up (`Scene.drive_of_calls`).  Bindings and registered functions take
their own names only, so an environment that spares the names which a plain template relies on has
no influence on what the template is rendered to (`Scene.render_spared`).
-/

namespace BracketTemplate

open Grammar

variable {σ : Type}

namespace Instruction

open Script

/-- Whether an instruction runs no statement, and no expression but a literal. -/
def isPlain : Instruction → Bool
  | escaped code | raw code => (Literal.ofCode? code).isSome
  | statement _ => false
  | _ => true

/-- The global functions that an instruction relies on when it is plain: the one that its script
calls, and those that are asked for the text of a literal. -/
def relied : Instruction → List String
  | emit _ => ["__text"]
  | rootdir _ => ["__rootdir"]
  | workdir _ => ["__workdir"]
  | escaped code => "__print_escaped" :: Literal.reliedBy code
  | raw code => "__print_raw" :: Literal.reliedBy code
  | statement _ => []

/-- What an instruction writes when it is plain. -/
def output (escape : String → String) : Instruction → String
  | emit text => text
  | escaped code => escape (Literal.printed code)
  | raw code => Literal.printed code
  | _ => ""

lemma exists_call? {i : Instruction} (h : i.isPlain = true) (index : Nat) :
    ∃ c, i.call? index = some c := by
  cases i with
  | escaped code | raw code =>
    obtain ⟨l, hl⟩ := Option.isSome_iff_exists.1 h
    exact ⟨_, congrArg (Option.map _) hl⟩
  | statement => cases h
  | emit | rootdir | workdir => exact ⟨_, rfl⟩

/-- Every call is one of a function for instructions. -/
lemma name_mem_callers {i : Instruction} {index : Nat} {c : GlobalCall}
    (h : i.call? index = some c) : c.name ∈ callers := by
  cases i with
  | escaped code | raw code =>
    obtain ⟨l, -, rfl⟩ := Option.map_eq_some_iff.1 h
    simp [callers]
  | statement => cases h
  | emit | rootdir | workdir =>
    cases h
    simp [callers, indexing]

end Instruction

namespace Program

open Script

/-- The global functions that a program relies on when it is plain. -/
def relied (program : Program) : List String := program.flatMap Instruction.relied

/-- What a program writes when it is plain. -/
def output (program : Program) (escape : String → String) : String :=
  String.join (program.map (Instruction.output escape))

lemma output_cons (i : Instruction) (rest : Program) (escape : String → String) :
    output (i :: rest) escape = i.output escape ++ output rest escape := String.join_cons

lemma exists_calls {program : Program} (h : ∀ i ∈ program, i.isPlain = true) (index : Nat) :
    ∃ calls, Calls index program calls := by
  induction program generalizing index with
  | nil => exact ⟨[], .nil⟩
  | cons i rest ih =>
    rw [List.forall_mem_cons] at h
    obtain ⟨c, hc⟩ := i.exists_call? h.1 index
    obtain ⟨calls, hcalls⟩ := ih h.2 (index + 1)
    exact ⟨c :: calls, .cons hc hcalls⟩

lemma Calls.name_mem {index : Nat} {program : Program} {calls : List GlobalCall}
    (h : Calls index program calls) : ∀ c ∈ calls, c.name ∈ callers := by
  induction h with
  | nil => nofun
  | cons hcall _ ih => exact List.forall_mem_cons.2 ⟨Instruction.name_mem_callers hcall, ih⟩

/-- The chunk of a plain program, when its script is accepted, makes its calls, one after another.
It has fewer instructions than a script may have lines. -/
lemma Calls.of_chunk {program : Program} {calls : List GlobalCall} (h : Calls 0 program calls)
    {name : String} {chunk : Chunk} (hchunk : program.chunk name = .ok chunk) :
    1 + program.length < Lexer.maxLines ∧ chunk.proto.parameters = 0 ∧
      calls.Forall₂ GlobalCall.Is chunk.proto.body := by
  have hnames : ∀ name ∈ callers, utf8 name ≠ Parser.environment := by decide +kernel
  exact Parser.ofScript_calls (lexes_lower h) (fun c hc => hnames c.name (h.name_mem c hc))
    (ofScript_of_chunk hchunk)

end Program

/-- None of certain names is bound or registered. -/
def Environment.Spares (env : Environment σ) (names : List String) : Prop :=
  ∀ name ∈ names, name ∉ env.bindings.map (·.1) ++ env.functionNames

instance (env : Environment σ) (names : List String) : Decidable (env.Spares names) :=
  inferInstanceAs (Decidable (∀ name ∈ names, name ∉ env.bindings.map (·.1) ++ env.functionNames))

/-! ## Calls in turn -/

namespace Script

/-- A block of calls has no labels. -/
lemma hasLabels_of_calls {calls : List GlobalCall} {body : List Stmt}
    (h : calls.Forall₂ GlobalCall.Is body) : hasLabels body = false := by
  induction h with
  | nil => rfl
  | cons hstmt _ ih =>
    obtain ⟨line, line', rfl⟩ := hstmt
    exact ih

/-- A call of a global function with a literal. -/
lemma execAll_globalCall {act : Activation} {h : Heap}
    (hglobals : h.cell (act.upvalueCell 0) = .table h.globals) {c : GlobalCall} {f : Builtin}
    (hf : h.globalVar c.name = .builtin f) {stmt : Stmt} (hstmt : c.Is stmt) (rest : List Stmt) :
    ∃ site, Stmt.execAll act none (stmt :: rest) h =
      .call (.builtin f) [c.argument.val] site h fun _ h => Stmt.execAll act none rest h := by
  obtain ⟨line, line', rfl⟩ := hstmt
  have hfn := first_values_index hglobals hf rfl Parser.environment line
  exact ⟨_, execAll_call hfn (c.values_expr act h) line' rest⟩

/-- A number that is small enough is taken for itself. -/
lemma hostNat_ofNat {n : Nat} (hn : n < 2 ^ 63) : Val.hostNat (.int (.ofNat n)) = .ok n := by
  have hint : (Int64.ofNat n).toInt = n := Int64.toInt_ofNat_of_lt hn
  have hpos : ¬Int64.ofNat n < 0 := by
    rw [Int64.lt_iff_toInt_lt, hint]
    simp
  rw [Val.hostNat, Val.toNumber?]
  simp [hpos, hint]

/-- The global variables of certain names are as they are from the start. -/
def Heap.Spares (h : Heap) (names : List String) : Prop :=
  ∀ name ∈ names, h.globalVar name = (Heap.initial ⟨[]⟩).globalVar name

end Script

namespace Scene

open Script (Machine Request)

variable {includePage : String → Scene σ → Scene σ} {program : Program}

/-- Carries out a plain instruction. -/
def carryPlain (s : Scene σ) : Instruction → Scene σ
  | .escaped code => s.onEnv (·.write false (Script.Literal.printed code))
  | .raw code => s.onEnv (·.write true (Script.Literal.printed code))
  | i => s.carryOut i

section

variable {m : Machine} {act : Script.Activation} {h : Script.Heap} (hroom : m.HasRoom)
  (hglobals : h.cell (act.upvalueCell 0) = .table h.globals)

include hroom hglobals

/-- The call for an instruction without code has it carried out. -/
lemma leadsWithin_indexing (kind : Script.InstructionKind) {i : Instruction}
    (hkind : i.kind? = some kind)
    (hspares : h.Spares [kind.spelling]) {index : Nat} (hi : program[index]? = some i)
    (hindex : index < 2 ^ 63) {stmt : Script.Stmt}
    (hstmt : (Instruction.indexing kind.spelling index).Is stmt) (body : List Script.Stmt)
    (s : Scene σ) :
    LeadsWithin includePage program 5 (m.goOn (Script.Stmt.execAll act none (stmt :: body) h), s)
      (m.goOn (Script.Stmt.execAll act none body h), s.carryOut i) := by
  have hf : h.globalVar kind.spelling = .builtin (.host kind.caller) :=
    (hspares kind.spelling List.mem_cons_self).trans
      (Script.Heap.globalVar_host ⟨[]⟩ (by cases kind <;> decide))
  obtain ⟨site, hexec⟩ := Script.execAll_globalCall (c := Instruction.indexing kind.spelling index)
    hglobals hf hstmt body
  rw [hexec]
  exact (leadsWithin_caller hroom (Script.hostNat_ofNat hindex) (perform_of_kind? hi hkind) site h
    _).mono (by decide)

/-- The call for a literal has it written. -/
lemma leadsWithin_printing (hroom' : ∀ frame, (m.push frame).HasRoom) {name code : String}
    {raw : Bool} (hname : (name, .printValue raw) ∈ Script.Host.names) {c : Script.GlobalCall}
    (hcall : Instruction.printing? name code = some c)
    (hspares : h.Spares (name :: Script.Literal.reliedBy code))
    {stmt : Script.Stmt} (hstmt : c.Is stmt) (body : List Script.Stmt) (s : Scene σ) :
    LeadsWithin includePage program 5 (m.goOn (Script.Stmt.execAll act none (stmt :: body) h), s)
      (m.goOn (Script.Stmt.execAll act none body h),
        s.onEnv (·.write raw (Script.Literal.printed code))) := by
  obtain ⟨l, hl, rfl⟩ := Option.map_eq_some_iff.1 hcall
  rw [Script.Literal.reliedBy, hl] at hspares
  rw [Script.Literal.printed, hl]
  have hf : h.globalVar name = .builtin (.host (.printValue raw)) :=
    (hspares name List.mem_cons_self).trans (Script.Heap.globalVar_host ⟨[]⟩ hname)
  obtain ⟨site, hexec⟩ := Script.execAll_globalCall (c := ⟨name, l, !isBlank code.toList⟩)
    hglobals hf hstmt body
  rw [hexec]
  have htostring : ∀ name ∈ l.relied, h.globalVar name = .builtin (.base .tostring) := by
    intro name hname
    have hspare := hspares name (List.mem_cons_of_mem _ hname)
    cases l with
    | nil | string => cases hname
    | bool | number =>
      cases List.mem_singleton.1 hname
      exact hspare.trans (Script.Heap.globalVar_tostring ⟨[]⟩)
  exact leadsWithin_print hroom hroom' htostring raw s site _

/-- The call that a plain instruction becomes carries it out. -/
lemma leadsWithin_call? (hroom' : ∀ frame, (m.push frame).HasRoom) {i : Instruction} {index : Nat}
    {c : Script.GlobalCall} (hcall : i.call? index = some c) (hspares : h.Spares i.relied)
    (hi : program[index]? = some i) (hindex : index < 2 ^ 63) {stmt : Script.Stmt}
    (hstmt : c.Is stmt) (body : List Script.Stmt) (s : Scene σ) :
    LeadsWithin includePage program 5 (m.goOn (Script.Stmt.execAll act none (stmt :: body) h), s)
      (m.goOn (Script.Stmt.execAll act none body h), s.carryPlain i) := by
  cases i with
  | emit text =>
    cases hcall
    exact leadsWithin_indexing hroom hglobals .text rfl hspares hi hindex hstmt body s
  | rootdir dir =>
    cases hcall
    exact leadsWithin_indexing hroom hglobals .rootdir rfl hspares hi hindex hstmt body s
  | workdir dir =>
    cases hcall
    exact leadsWithin_indexing hroom hglobals .workdir rfl hspares hi hindex hstmt body s
  | escaped code =>
    exact leadsWithin_printing hroom hglobals hroom' (by decide) hcall hspares hstmt body s
  | raw code =>
    exact leadsWithin_printing hroom hglobals hroom' (by decide) hcall hspares hstmt body s
  | statement => cases hcall

/-- **A block of calls** has the plain instructions that they are for carried out in turn. -/
theorem leadsWithin_calls (hroom' : ∀ frame, (m.push frame).HasRoom) (done : Program)
    {rest : Program}
    {calls : List Script.GlobalCall} (hcalls : Program.Calls done.length rest calls)
    (hsize : done.length + rest.length < 2 ^ 63) (hspares : h.Spares rest.relied)
    {body : List Script.Stmt} (hbody : calls.Forall₂ Script.GlobalCall.Is body) (s : Scene σ) :
    LeadsWithin includePage (done ++ rest) (5 * rest.length)
      (m.goOn (Script.Stmt.execAll act none body h), s)
      (m.goOn (.done .normal h), rest.foldl carryPlain s) := by
  induction rest generalizing done calls body s with
  | nil =>
    cases hcalls
    cases hbody
    rw [Script.Stmt.execAll]
    exact .refl _ _
  | cons i rest ih =>
    cases hcalls with | @cons _ _ _ c calls hcall hcalls =>
    cases hbody with | @cons _ stmt _ body hstmt hbody =>
    rw [List.length_cons] at hsize
    have hline : LeadsWithin includePage (done ++ i :: rest) 5 _ _ :=
      leadsWithin_call? hroom hglobals hroom' hcall
        (fun name hname => hspares name (List.mem_append_left _ hname)) (by simp) (by omega) hstmt
        body s
    have hrest := ih (done ++ [i]) (by simpa using hcalls) (by simp; omega)
      (fun name hname => hspares name (List.mem_append_right _ hname)) hbody (s.carryPlain i)
    rw [List.append_assoc, List.singleton_append] at hrest
    exact hline.trans hrest

end

/-- **The script of a plain program** carries out its instructions in turn and comes to its end. -/
theorem drive_of_calls {chunk : Script.Chunk} {h : Script.Heap} {calls : List Script.GlobalCall}
    {name : String} (hcalls : Program.Calls 0 program calls)
    (hchunk : program.chunk name = .ok chunk)
    (hspares : h.Spares program.relied) (hfiles : h.files = Script.Files.standardFiles.toArray)
    (s : Scene σ) :
    drive includePage program maxSteps ((Machine.ofChunk chunk h).run maxSteps) s =
      (none, program.foldl carryPlain s) := by
  obtain ⟨hlines, hparameters, hbody⟩ := hcalls.of_chunk hchunk
  -- a script of so few lines has its calls counted by integers, and is done before it is given up
  unfold Script.Lexer.maxLines at hlines
  have hsize : ([] : Program).length + program.length < 2 ^ 63 := by
    rw [List.length_nil]
    omega
  have hlength : 5 * program.length + 2 < maxSteps := by
    unfold maxSteps
    omega
  exact drive_of_statements hlength hparameters (Script.hasLabels_of_calls hbody) hfiles
    fun _ _ _ hroom hroom' hglobals hvars =>
      leadsWithin_calls hroom hglobals hroom' [] hcalls hsize
        (fun name hname => (hvars name).trans (hspares name hname)) hbody s

/-! ## Evaluation -/

/-- A plain template whose script is accepted is evaluated by carrying out its instructions in turn,
in an environment that leaves the names alone which the template relies on. -/
theorem evaluate_plain {t : Template} (hevaluator : t.evaluator = .script)
    (hplain : ∀ i ∈ t.program, i.isPlain = true) (haccepts : t.program.check t.name = .ok ())
    {s : Scene σ} (hspares : s.env.Spares t.program.relied) :
    s.evaluate t = (.ok (), (t.program.foldl carryPlain (s.onEnv (·.enter t))).onEnv fun env =>
      { env with running := s.env.running }) := by
  obtain ⟨calls, hcalls⟩ := Program.exists_calls hplain 0
  obtain ⟨chunk, hchunk⟩ := Program.exists_chunk_of_check haccepts
  have hsets := Script.Heap.sets_start ((s.onEnv (·.enter t)).scriptRoot t.program) s.env.bindings
    s.env.functionNames
  have hheap (name : String) (hname : name ∈ t.program.relied) :=
    hsets.other name (hspares name hname)
  exact evaluate_of_drive hevaluator hchunk
    (drive_of_calls hcalls hchunk hheap hsets.ready.files _)

lemma carryPlain_output (s : Scene σ) (i : Instruction) :
    (s.carryPlain i).env.output = s.env.output ++ i.output s.env.escape ∧
      (s.carryPlain i).env.escape = s.env.escape := by
  cases i with
  | emit | escaped | raw => exact ⟨rfl, rfl⟩
  | statement | rootdir | workdir => exact ⟨String.append_empty.symm, rfl⟩

/-- What plain instructions write in turn. -/
lemma foldl_carryPlain_output (program : Program) (s : Scene σ) :
    (program.foldl carryPlain s).env.output = s.env.output ++ program.output s.env.escape := by
  induction program generalizing s with
  | nil => exact String.append_empty.symm
  | cons i rest ih =>
    obtain ⟨houtput, hescape⟩ := s.carryPlain_output i
    rw [List.foldl_cons, ih, houtput, hescape, String.append_assoc, Program.output_cons]

/-- **A plain template whose script is accepted is rendered** to the texts of its instructions, in
an environment that leaves the names alone which the template relies on. -/
theorem render_of_plain {t : Template} (hevaluator : t.evaluator = .script)
    (hplain : ∀ i ∈ t.program, i.isPlain = true) (haccepts : t.program.check t.name = .ok ())
    {s : Scene σ} (hspares : s.env.Spares t.program.relied) :
    (s.render t).1 = .ok (t.program.output s.env.escape) := by
  have heval := evaluate_plain hevaluator hplain haccepts hspares
  have houtput : (s.evaluate t).2.env.output = s.env.output ++ t.program.output s.env.escape := by
    rw [heval]
    exact foldl_carryPlain_output t.program (s.onEnv (·.enter t))
  rw [render_eq t houtput, heval]
  rfl

end Scene

/-! ## Plain sources -/

namespace Grammar

/-- Whether a segment runs no statement, and prints nothing but a literal. -/
def Segment.isPlain : Segment → Bool
  | .region .statement _ _ _ => false
  | .region .escaped _ code _ | .region .raw _ code _ =>
    (Script.Literal.ofCode? (String.ofList code)).isSome
  | _ => true

variable {segment : Segment} {after before : Bool} {i : Instruction}

lemma isPlain_of_mem (h : segment.isPlain = true) (hi : i ∈ segment.instructions after before) :
    i.isPlain = true := by
  cases segment with
  | literal text =>
    rw [Segment.instructions, emitted] at hi
    split at hi
    · cases hi
    · cases List.mem_singleton.1 hi
      rfl
  | region kind left code right =>
    cases kind with
    | statement => cases h
    | escaped | raw =>
      cases List.mem_singleton.1 hi
      exact h
    | comment | staticInclude => cases hi
  | inclusion left name right =>
    cases List.mem_singleton.1 hi
    rfl
  | unclosed => cases hi

/-- The mark of an include is there for that include. -/
lemma exists_inclusion {name : List Char} (h : mark name ∈ segment.instructions after before) :
    ∃ left right, segment = .inclusion left name right := by
  cases segment with
  | literal text =>
    rw [Segment.instructions, emitted] at h
    split at h
    · cases h
    · cases List.mem_singleton.1 h
  | region kind left code right =>
    cases kind with
    | statement | escaped | raw => cases List.mem_singleton.1 h
    | comment | staticInclude => cases h
  | inclusion left other right =>
    obtain rfl := mark_injective (List.mem_singleton.1 h)
    exact ⟨left, right, rfl⟩
  | unclosed => cases h

/-- Every instruction is one of a segment. -/
lemma exists_mem_of_mem_instructions {segs : List Segment} (h : i ∈ instructions after segs) :
    ∃ segment ∈ segs, ∃ after before, i ∈ segment.instructions after before := by
  induction segs generalizing after with
  | nil => cases h
  | cons first rest ih =>
    rcases List.mem_append.1 h with hfirst | hrest
    · exact ⟨first, List.mem_cons_self, after, _, hfirst⟩
    · obtain ⟨segment, hsegment, hi⟩ := ih hrest
      exact ⟨segment, List.mem_cons_of_mem _ hsegment, hi⟩

end Grammar

namespace Source

/-- Neither the source nor what it includes runs a statement, or prints anything but literals. -/
def IsPlain (tree : FileTree) (s : Source) : Prop :=
  ∀ u, Reaches tree s u → ∀ segment ∈ segments u.text, segment.isPlain = true

variable {tree : FileTree} {s : Source}

/-- A splice of plain sources is plain. -/
lemma Spliced.isPlain {program : Program} {body : List (Source × Instruction)}
    (h : Spliced tree s program body) (hplain : s.IsPlain tree)
    (hprogram : ∀ i ∈ program, i ∈ instructions false (segments s.text)) :
    ∀ entry ∈ body, entry.2.isPlain = true := by
  induction h with
  | nil => nofun
  | own hown _ ih =>
    rw [List.forall_mem_cons] at hprogram
    obtain ⟨segment, hsegment, _, _, hi⟩ := exists_mem_of_mem_instructions hprogram.1
    exact List.forall_mem_cons.2
      ⟨isPlain_of_mem (hplain _ .refl segment hsegment) hi, ih hplain hprogram.2⟩
  | @inclusion s name text target program rest inner body hresolve hread halone _ _ ihinner ih =>
    rw [List.forall_mem_cons] at hprogram
    obtain ⟨segment, hsegment, _, _, hmark⟩ := exists_mem_of_mem_instructions hprogram.1
    obtain ⟨left, right, rfl⟩ := exists_inclusion hmark
    have hincludes : Includes tree s (s.included target text) := .mk hsegment hresolve hread
    have hinner := ihinner (fun u hu => hplain u (.head hincludes hu)) fun i hi => by
      rwa [((alone_eq_ok _).1 halone).2] at hi
    intro entry hentry
    rcases List.mem_cons.1 hentry with rfl | hentry
    · rfl
    rcases List.mem_append.1 hentry with hentry | hentry
    · exact hinner entry hentry
    rcases List.mem_cons.1 hentry with rfl | hentry
    · rfl
    · exact ih hplain hprogram.2 entry hentry

/-- **A plain source compiles to a plain program**, which is its splice behind its directories. -/
theorem isPlain_of_compile {accepts : String → Program → Except TemplateError Unit} {c : Compiled}
    (h : s.compile accepts tree = .ok c) (hplain : s.IsPlain tree) :
    (∀ i ∈ c.program, i.isPlain = true) ∧
      ∃ body, Spliced tree s (instructions false (segments s.text)) body ∧
        c.program = .rootdir s.rootdir :: .workdir s.workdir :: body.map (·.2) := by
  obtain ⟨program, body, -, rfl, hspliced, hc, -⟩ := s.compile_spliced h
  have hbody := (hspliced body).2 rfl
  refine ⟨?_, body, hbody, hc⟩
  rw [hc]
  refine List.forall_mem_cons.2 ⟨rfl, List.forall_mem_cons.2 ⟨rfl, fun i hi => ?_⟩⟩
  obtain ⟨entry, hentry, rfl⟩ := List.mem_map.1 hi
  exact hbody.isPlain hplain (fun i hi => hi) entry hentry

end Source

namespace Scene

/-- **Names that a template does not rely on cannot change what it renders to.**  When neither a
source nor any file that it includes has a statement, and all that is printed there are literals,
then its template is rendered to the texts of its instructions: literal text as it is, and the text
of each literal, escaped or as it is.  The instructions are those of the segments of the source,
with those of each file in the place of its include.  So it is in every environment in which none of
the global functions is bound or registered that the script relies on: those that its instructions
call, and `tostring` when a boolean or a number is printed.  All other names may be bound to
anything and registered for anything. -/
theorem render_spared {tree : FileTree} {identity : Nat} {s : Source} {t : Template}
    (ht : Template.ofSource .script tree identity s = .ok t) (hplain : s.IsPlain tree)
    {scene other : Scene σ}
    {bindings : List (String × Value)} {functions : List (String × RegisteredFunction σ)}
    {memo : List ((String × String) × Value)}
    (hother : other = scene.onEnv fun env => { env with bindings, functions, memo })
    (hspares : scene.env.Spares t.program.relied) (hspares' : other.env.Spares t.program.relied) :
    (scene.render t).1 = (other.render t).1 ∧
      (scene.render t).1 = .ok (t.program.output scene.env.escape) ∧
      ∃ body, Source.Spliced tree s (instructions false (segments s.text)) body ∧
        t.program = .rootdir s.rootdir :: .workdir s.workdir :: body.map (·.2) := by
  obtain ⟨c, hc, rfl⟩ : ∃ c, s.compile Evaluator.script.accepts tree = .ok c ∧
      t = ⟨identity, c, .script⟩ := by
    unfold Template.ofSource at ht
    cases hc : s.compile Evaluator.script.accepts tree with
    | error e =>
      rw [hc] at ht
      cases ht
    | ok c =>
      rw [hc] at ht
      cases ht
      exact ⟨c, rfl, rfl⟩
  obtain ⟨hinstructions, hspliced⟩ := Source.isPlain_of_compile hc hplain
  have haccepts : c.program.check c.name = .ok () := by
    obtain ⟨d, -, haccepts, rfl⟩ := s.compile_eq_ok.1 hc
    exact haccepts
  have hrender := render_of_plain (t := ⟨identity, c, .script⟩) rfl hinstructions haccepts hspares
  have hrender' := render_of_plain (t := ⟨identity, c, .script⟩) rfl hinstructions haccepts hspares'
  refine ⟨?_, hrender, hspliced⟩
  rw [hrender, hrender', hother]
  rfl

/-- A text, literals in all three forms of output, and a scene that binds a name. -/
def literalPage : Source := ⟨"a[='<'][!'<'][=0x10]".toList, ⟨['/']⟩, ⟨['/']⟩, none⟩

def literalTemplate : Template :=
  ⟨0, ⟨"(source)", [.rootdir ⟨['/']⟩, .workdir ⟨['/']⟩, .emit "a", .escaped "'<'", .raw "'<'",
    .escaped "0x10"], []⟩, .script⟩

def bindingScene (bindings : List (String × Value)) : Scene Unit where
  env := { Environment.new fun text => String.ofList (Html.escape text.toList) with bindings }
  world := { files := ⟨[], [], 0⟩, now := 0, state := () }

lemma isPlain_literalPage : literalPage.IsPlain ⟨[], [], 0⟩ := by
  have hsegments : ∀ segment ∈ segments literalPage.text,
      segment.isPlain = true ∧ segment.isInclusion = false := by decide +kernel
  intro u hu segment hsegment
  rcases Relation.ReflTransGen.cases_head hu with rfl | ⟨v, ⟨hinclusion, -, -⟩, -⟩
  · exact (hsegments segment hsegment).1
  · cases (hsegments _ hinclusion).2

theorem render_spared_literals :
    Template.ofSource .script ⟨[], [], 0⟩ 0 literalPage = .ok literalTemplate ∧
      ((bindingScene [("x", .int 1)]).render literalTemplate).1 =
        ((bindingScene [("string", .nil), ("print", .str "y")]).render literalTemplate).1 ∧
      ((bindingScene [("x", .int 1)]).render literalTemplate).1 = .ok "a&lt;<16" := by
  have ht : Template.ofSource .script ⟨[], [], 0⟩ 0 literalPage = .ok literalTemplate := by
    decide +kernel
  have hother : bindingScene [("string", .nil), ("print", .str "y")] =
      (bindingScene [("x", .int 1)]).onEnv fun env =>
        { env with
          bindings := [("string", .nil), ("print", .str "y")]
          functions := []
          memo := [] } :=
    rfl
  obtain ⟨heq, hrender, -⟩ := render_spared ht isPlain_literalPage hother (by decide +kernel)
    (by decide +kernel)
  exact ⟨ht, heq, hrender.trans (by decide +kernel)⟩

/-- A binding can take the place of the function that writes the texts of a template. -/
theorem render_not_spared :
    Template.ofSource .script ⟨[], [], 0⟩ 0 literalPage = .ok literalTemplate ∧
      literalPage.IsPlain ⟨[], [], 0⟩ ∧
      (bindingScene []).env.set "__text" (.int 1) = .ok (bindingScene [("__text", .int 1)]).env ∧
      ((bindingScene []).render literalTemplate).1 = .ok "a&lt;<16" ∧
      ((bindingScene [("__text", .int 1)]).render literalTemplate).1 ≠ .ok "a&lt;<16" :=
  ⟨by decide +kernel, isPlain_literalPage, rfl, by decide +kernel, by decide +kernel⟩

end Scene

end BracketTemplate
