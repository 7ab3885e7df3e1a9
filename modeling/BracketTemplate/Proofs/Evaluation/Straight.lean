import Mathlib
import BracketTemplate.Proofs.Evaluation.Visiting
import BracketTemplate.Proofs.Script.Results

/-!
# Programs without code

A text and a directory have no code of their own: the script of a program calls the host with the
index of each, and the host looks the instruction up and carries it out.  So a program of nothing
else is carried out in turn (`Scene.drive_ofChunk`).

The script is followed statement by statement.  A call takes the machine three steps, in which it
asks for the instruction and comes back to the statements behind (`Scene.leadsWithin_caller`); by
induction on the statements all instructions are carried out (`Scene.leadsWithin_callsFrom`).  What
follows the last of them takes a bounded number of steps, too, and a script that comes to its end in
fewer steps than it may take is driven to it (`Scene.drive_of_leadsWithin`).
-/

namespace BracketTemplate

variable {σ : Type}

/-- The kind of an instruction without code. -/
def Instruction.kind? : Instruction → Option Script.InstructionKind
  | emit _ => some .text
  | rootdir _ => some .rootdir
  | workdir _ => some .workdir
  | _ => none

namespace Script

/-! ## Statements that call instructions -/

namespace InstructionKind

/-- The host function for instructions of a kind. -/
def caller : InstructionKind → HostFunction
  | text => .text
  | rootdir => .rootdirAt
  | workdir => .workdirAt

/-- How a script spells the host function for instructions of a kind. -/
def spelling : InstructionKind → String
  | text => "__text"
  | rootdir => "__rootdir"
  | workdir => "__workdir"

end InstructionKind

/-- Whether a statement calls the instruction at an index, of a kind. -/
def Stmt.isCallOf (kind : InstructionKind) (index : Nat) : Stmt → Bool
  | .call (.call (.index (.upvalue 0 _) (.string name) _) [.number (.int i)] _) =>
    name == utf8 kind.spelling && decide (0 ≤ i) && i.toInt.toNat == index
  | _ => false

/-- Whether a block calls instructions of certain kinds, one after another from an index on. -/
def callsFrom : Nat → List InstructionKind → List Stmt → Bool
  | _, [], [] => true
  | index, kind :: kinds, stmt :: body =>
    stmt.isCallOf kind index && callsFrom (index + 1) kinds body
  | _, _, _ => false

/-- The first upvalue of a function is the table of the global variables, and the host functions for
instructions are among these. -/
structure Activation.Knows (act : Activation) (h : Heap) : Prop where
  globals : h.cell (act.upvalueCell 0) = .table h.globals
  host : ∀ kind : InstructionKind, h.globalVar kind.spelling = .builtin (.host kind.caller)

/-- A field that is there is found without a metatable. -/
lemma Operation.index_of_not_nil {site : Site} {id : Nat} {key v : Val} {h : Heap}
    (hget : (h.table id).get key = v) (hv : v.isNil = false) :
    Operation.index site (.table id) key h = .done v h := by
  show Operation.indexIn _ key (1999 + 1) _ _ h = _
  rw [Operation.indexIn]
  simp [hget, hv]

lemma first_single {m : Act Val} {v : Val} {h left : Heap} (hm : m h = .done v left) :
    first (single m) h = .done v left := by
  have hsingle : single m h = .done [v] left := bind_of_done hm
  exact bind_of_done hsingle

/-- A global variable that is there, as an expression. -/
lemma first_values_index {act : Activation} {h : Heap}
    (hglobals : h.cell (act.upvalueCell 0) = .table h.globals) {name : String} {f : Val}
    (hf : h.globalVar name = f) (hnil : f.isNil = false) (env : Bytes) (line : Nat) :
    first ((Expr.index (.upvalue 0 env) (.string (utf8 name)) line).values act) h = .done f h := by
  have hobject : first ((Expr.upvalue 0 env).values act) h = .done (.table h.globals) h := by
    rw [Expr.values, ← hglobals]
    rfl
  have hkey : first ((Expr.string (utf8 name)).values act) h = .done (.str (utf8 name)) h := by
    rw [Expr.values]
    rfl
  rw [Expr.values]
  refine first_single ?_
  show (first ((Expr.string (utf8 name)).values act) >>= fun key =>
    first ((Expr.upvalue 0 env).values act) >>= fun object => Operation.index _ object key) h = _
  rw [bind_of_done hkey, bind_of_done hobject]
  exact Operation.index_of_not_nil hf hnil

/-- A call as a statement goes on with the statements behind it, whatever its results are. -/
lemma execAll_call {act : Activation} {h : Heap} {fn arg : Expr} {f v : Val}
    (hfn : first (fn.values act) h = .done f h) (harg : arg.values act h = .done [v] h) (line : Nat)
    (rest : List Stmt) :
    Stmt.execAll act none (.call (.call fn [arg] line) :: rest) h =
      .call f [v] (act.siteOf line fn.describe) h fun _ h => Stmt.execAll act none rest h := by
  have hargs : Expr.listValues act [arg] h = .done [v] h := by rwa [Expr.listValues]
  have hvalues : (Expr.call fn [arg] line).values act h =
      .call f [v] (act.siteOf line fn.describe) h fun values h => .done values h := by
    rw [Expr.values, bind_of_done hfn, bind_of_done hargs]
    rfl
  rw [Stmt.execAll, Stmt.exec]
  · show ((Expr.values _ _ h).bind _).bind _ = _
    rw [hvalues]
    rfl
  · rintro slot count closing names values line ⟨⟩
  · rintro slot proto ⟨⟩

/-- A statement that calls an instruction calls the host function for it with its index. -/
lemma execAll_of_isCallOf {act : Activation} {h : Heap} (hknows : act.Knows h)
    {kind : InstructionKind} {index : Nat} {stmt : Stmt} (hcall : stmt.isCallOf kind index = true)
    (rest : List Stmt) :
    ∃ (i : Int64) (line : Nat) (name : Option (String × Bytes)), Val.hostNat (.int i) = .ok index ∧
      Stmt.execAll act none (stmt :: rest) h =
        .call (.builtin (.host kind.caller)) [.int i] (act.siteOf line name) h
          fun _ h => Stmt.execAll act none rest h := by
  unfold Stmt.isCallOf at hcall
  split at hcall
  · next env name line' i line =>
    simp only [Bool.and_eq_true, beq_iff_eq, decide_eq_true_eq] at hcall
    obtain ⟨⟨rfl, hi⟩, hindex⟩ := hcall
    have hfn := first_values_index hknows.globals (hknows.host kind) rfl env line'
    refine ⟨i, line, _, ?_, execAll_call hfn (by rw [Expr.values]; rfl) line rest⟩
    rw [Val.hostNat, Val.toNumber?]
    simp [Int64.not_lt.2 hi, hindex]
  · cases hcall

/-- A block that does nothing but call instructions has no labels. -/
lemma hasLabels_of_callsFrom {index : Nat} {kinds : List InstructionKind} {body : List Stmt}
    (h : callsFrom index kinds body = true) : hasLabels body = false := by
  induction kinds generalizing index body with
  | nil =>
    cases body with
    | nil => rfl
    | cons => cases h
  | cons kind kinds ih =>
    cases body with
    | nil => cases h
    | cons stmt body =>
      obtain ⟨hstmt, hbody⟩ := Bool.and_eq_true_iff.1 h
      have hrest : body.any _ = false := ih hbody
      unfold Stmt.isCallOf at hstmt
      split at hstmt
      · exact hrest
      · cases hstmt

/-! ## The function of a script -/

/-- A function without parameters runs its body as it is, unless there are labels in it. -/
lemma Closure.run_nil {c : Closure} (hparameters : c.proto.parameters = 0)
    (hlabels : hasLabels c.proto.body = false) (h : Heap) :
    ∃ act : Activation, act.upvalues = c.upvalues ∧
      c.run [] h = Stmt.execAll act none c.proto.body h := by
  unfold Closure.run runBlock
  rw [hparameters]
  simp only [hlabels]
  exact ⟨_, rfl, rfl⟩

lemma Heap.addChunk_closure (h : Heap) (chunk : Chunk) :
    (h.addChunk chunk).2.closure h.closures.size = ⟨chunk.name, chunk.proto, #[h.cells.size]⟩ := by
  simp [addChunk, newCell, newClosure, closure]

/-- The function of a chunk has the global variables for its upvalue. -/
lemma Heap.globals_addChunk (h : Heap) (chunk : Chunk) {act : Activation}
    (hact : act.upvalues = #[h.cells.size]) :
    (h.addChunk chunk).2.cell (act.upvalueCell 0) = .table (h.addChunk chunk).2.globals := by
  rw [Activation.upvalueCell, hact]
  simp [addChunk, newCell, newClosure, cell]

/-- Nothing waits to be written to the files that are open from the start. -/
lemma Files.finish_of_standard {h : Heap} (hfiles : h.files = standardFiles.toArray) :
    finish h = .done () h := by
  cases h
  cases hfiles
  rfl

/-- A script whose function succeeds reports nothing, when nothing waits to be written. -/
lemma exists_runScript_eq (fn : Val) (h : Heap) :
    ∃ next, runScript fn h = .guard fn [] none h next ∧ ∀ heap : Heap,
      heap.files = Files.standardFiles.toArray → next (.ok []) heap = .done [] heap := by
  refine ⟨_, rfl, fun heap hfiles => ?_⟩
  have hfinish : (Files.finish >>= fun _ => (pure [] : Act (List Val))) heap = .done [] heap :=
    bind_of_done (Files.finish_of_standard hfiles)
  exact hfinish

/-- The host function for an instruction asks for it, and has no results when it is there. -/
lemma run_caller (kind : InstructionKind) (site : Site) {i : Int64} {index : Nat}
    (hi : Val.hostNat (.int i) = .ok index) (h : Heap) :
    ∃ next, (Builtin.host kind.caller).run site [.int i] h =
      .ask (.instruction kind index) h next ∧ ∀ heap, next true heap = .done [] heap := by
  have hperform : (Builtin.host kind.caller).run site [.int i] =
      Host.perform kind ⟨(Builtin.host kind.caller).named site, [.int i]⟩ := by
    cases kind <;> rfl
  have hindex :
      Arguments.converted ⟨(Builtin.host kind.caller).named site, [.int i]⟩ 1 Val.hostNat h =
      .done index h := by
    rw [Arguments.converted, Arguments.get, Arguments.get?]
    simp only [List.getElem?_cons_zero, Nat.sub_self, Option.getD_some, hi]
    rfl
  rw [hperform, Host.perform, bind_of_done hindex]
  exact ⟨_, rfl, fun heap => rfl⟩

namespace Machine

variable {m : Machine}

/-- One more call fits on the stack, whoever makes it. -/
structure HasRoom (m : Machine) : Prop where
  calls : m.calls < maxCalls
  native : m.native + 1 < maxNative

/-- When two more calls fit, there is room for one above the frame of another. -/
lemma hasRoom_push (hcalls : m.calls + 1 < maxCalls) (hnative : m.native + 2 < maxNative)
    (frame : Frame) : (m.push frame).HasRoom := by
  constructor
  · show (if frame.isCall then m.calls + 1 else m.calls) < maxCalls
    split <;> omega
  · show (if frame.isNative then m.native + 1 else m.native) + 1 < maxNative
    split <;> omega

/-- A call for which there is room puts its frame on the stack. -/
lemma HasRoom.call_pushes (hroom : m.HasRoom) (frame : Frame) (fn : Val) (args : List Val)
    (site : Site)
    (h : Heap) : m.call frame fn args site h = (m.push frame).goOn (begin fn args site h) := by
  unfold call
  rw [if_neg (not_le.2 hroom.calls), if_neg (by simp [hroom.native])]

/-- A frame is taken off a stack as it was put there. -/
lemma pop_push (m : Machine) (frame : Frame) : (m.push frame).pop frame m.frames = m := by
  unfold push pop
  cases frame.isCall <;> cases frame.isNative <;> rfl

/-- A call of a builtin function puts its frame on the stack and runs the function. -/
lemma HasRoom.step_call (hroom : m.HasRoom) (f : Builtin) (args : List Val) (site : Site) (h : Heap)
    (after : Heap → Outcome Signal) :
    (m.goOn (.call (.builtin f) args site h fun _ h => after h)).step =
      .next ((m.push (.call site fun _ h => after h)).goOn
        ((f.run site args h).bind fun values h => .done (.return values) h)) :=
  congrArg Step.next (hroom.call_pushes _ _ _ _ _)

/-- A call whose results are of no account is done with its frame. -/
lemma step_return (m : Machine) (site : Site) (after : Heap → Outcome Signal) (values : List Val)
    (h : Heap) :
    ((m.push (.call site fun _ h => after h)).goOn (.done (.return values) h)).step =
      .next (m.goOn (after h)) := by
  let frame : Frame := .call site fun _ h => after h
  have hpop : Step.next (((m.push frame).pop frame m.frames).goOn (after h)) =
      .next (m.goOn (after h)) := by rw [pop_push]
  exact hpop

/-- **A chunk runs above one frame.**  The first step enters its statements, with the global
variables at hand, and when these are left normally the machine comes to its end.  There is room for
a call that makes another one. -/
lemma exists_ofChunk {chunk : Chunk} {h : Heap} (hparameters : chunk.proto.parameters = 0)
    (hlabels : hasLabels chunk.proto.body = false)
    (hfiles : h.files = Files.standardFiles.toArray) :
    ∃ (m : Machine) (act : Activation) (heap : Heap),
      (ofChunk chunk h).step = .next (m.goOn (Stmt.execAll act none chunk.proto.body heap)) ∧
      (m.HasRoom ∧ ∀ frame, (m.push frame).HasRoom) ∧
      (heap.cell (act.upvalueCell 0) = .table heap.globals ∧
        ∀ name, heap.globalVar name = h.globalVar name) ∧
      ∃ last : Machine, (m.goOn (.done .normal heap)).step = .next last ∧
        ∃ heap', last.step = .done (.ok []) heap' := by
  let fn : Val := (h.addChunk chunk).1
  let heap : Heap := (h.addChunk chunk).2
  obtain ⟨next, hscript, hnext⟩ := exists_runScript_eq fn heap
  let frame : Frame := .guard none fun result heap =>
    (next result heap).bind fun values h => .done (.return values) h
  obtain ⟨act, hact, hrun⟩ := Closure.run_nil (c := ⟨chunk.name, chunk.proto, #[h.cells.size]⟩)
    hparameters hlabels heap
  have hbegin : begin fn [] {} heap = Stmt.execAll act none chunk.proto.body heap := by
    show (heap.closure h.closures.size).run [] heap = _
    rw [h.addChunk_closure chunk]
    exact hrun
  have hstart : (ofChunk chunk h).step = .next (((ofChunk chunk h).push frame).goOn
      (Stmt.execAll act none chunk.proto.body heap)) := by
    have hfocus : (ofChunk chunk h).focus = .guard fn [] none heap fun result heap =>
        (next result heap).bind fun values h => .done (.return values) h :=
      congrArg (Outcome.bind · _) hscript
    have hroom : (ofChunk chunk h).HasRoom :=
      ⟨show 0 < maxCalls by decide, show 0 + 1 < maxNative by decide⟩
    rw [step, hfocus, ← hbegin]
    exact congrArg Step.next (hroom.call_pushes frame fn [] {} heap)
  have hroom : ((ofChunk chunk h).push frame).HasRoom :=
    ⟨show 1 < maxCalls by decide, show 1 + 1 < maxNative by decide⟩
  have hroom' : ∀ above, (((ofChunk chunk h).push frame).push above).HasRoom :=
    hasRoom_push (show 1 + 1 < maxCalls by decide) (show 1 + 2 < maxNative by decide)
  have hend : (((ofChunk chunk h).push frame).goOn (.done .normal heap)).step =
      .next ((ofChunk chunk h).goOn (.done (.return []) heap)) := by
    have hreturn : (next (.ok []) heap).bind (fun values h => .done (.return values) h) =
        (.done (.return []) heap : Outcome Signal) := by
      rw [hnext heap hfiles]
      rfl
    rw [← hreturn]
    rfl
  exact ⟨(ofChunk chunk h).push frame, act, heap, hstart, ⟨hroom, hroom'⟩,
    ⟨h.globals_addChunk chunk hact, fun name => rfl⟩, _, hend, heap, rfl⟩

end Machine

end Script

/-- The chunk of a program whose script can be parsed. -/
lemma Program.chunk_of_ofScript {program : Program} {proto : Script.Proto}
    (h : Script.Parser.ofScript (Utf8.encode program.lower) = .ok proto) (name : String) :
    program.chunk name = .ok ⟨Script.Chunk.shownName (utf8 name), proto⟩ := by
  rw [Program.chunk, Script.Chunk.load, h]
  rfl

/-- The script of a program that has a chunk can be parsed. -/
lemma Program.ofScript_of_chunk {program : Program} {name : String} {chunk : Script.Chunk}
    (h : program.chunk name = .ok chunk) :
    Script.Parser.ofScript (Utf8.encode program.lower) = .ok chunk.proto := by
  rw [Program.chunk, Script.Chunk.load] at h
  rcases hproto : Script.Parser.ofScript (Utf8.encode program.lower) with f | proto
  · rw [hproto] at h
    cases h
  · rw [hproto] at h
    cases h
    rfl

/-- A program that is accepted has a chunk. -/
lemma Program.exists_chunk_of_check {program : Program} {name : String}
    (h : program.check name = .ok ()) : ∃ chunk, program.chunk name = .ok chunk := by
  rw [Program.check] at h
  rcases hchunk : program.chunk name with e | chunk
  · rw [hchunk] at h
    cases h
  · exact ⟨chunk, rfl⟩

namespace Scene

open Script (Machine Request)

variable {includePage : String → Scene σ → Scene σ} {program : Program}

/-! ## Counting steps -/

/-- One state comes after another, in so many steps at most. -/
inductive LeadsWithin (includePage : String → Scene σ → Scene σ) (program : Program) :
    Nat → Machine × Scene σ → Machine × Scene σ → Prop
  | refl (n : Nat) (a : Machine × Scene σ) : LeadsWithin includePage program n a a
  | step {n : Nat} {a b c : Machine × Scene σ} (hadvance : advance includePage program a = some b)
      (hleads : LeadsWithin includePage program n b c) : LeadsWithin includePage program (n + 1) a c

lemma LeadsWithin.mono {n k : Nat} {a b : Machine × Scene σ}
    (h : LeadsWithin includePage program n a b) (hk : n ≤ k) :
    LeadsWithin includePage program k a b := by
  induction h generalizing k with
  | refl n a => exact .refl k a
  | step hadvance _ ih =>
    obtain ⟨k, rfl⟩ : ∃ less, k = less + 1 := ⟨k - 1, by omega⟩
    exact .step hadvance (ih (by omega))

lemma LeadsWithin.trans {n k : Nat} {a b c : Machine × Scene σ}
    (h : LeadsWithin includePage program n a b) (h' : LeadsWithin includePage program k b c) :
    LeadsWithin includePage program (k + n) a c := by
  induction h with
  | refl n a => exact h'.mono (by omega)
  | step hadvance _ ih => exact .step hadvance (ih h')

/-- **A script that comes to its end within so many steps** is driven to it. -/
theorem drive_of_leadsWithin {n : Nat} {m m' : Machine} {s s' : Scene σ}
    {result : Except Script.Val (List Script.Val)} {heap : Script.Heap}
    (h : LeadsWithin includePage program n (m, s) (m', s')) (hdone : m'.step = .done result heap)
    (hn : n < maxSteps) {fuel steps : Nat} (hfuel : n ≤ fuel) (hsteps : n < steps) :
    drive includePage program fuel (m.run steps) s = (Script.reportOfResult result, s') := by
  generalize ha : (m, s) = a at h
  generalize hb : (m', s') = b at h
  -- a step of the machine uses up one of the run, a request one of the drive, and starts a new run
  induction h generalizing m s fuel steps with
  | refl n a =>
    subst ha
    cases hb
    obtain ⟨steps, rfl⟩ := Nat.exists_eq_add_of_lt hsteps
    rw [show n + steps + 1 = (n + steps) + 1 from rfl, Machine.run, hdone]
    cases fuel <;> rfl
  | @step n a b c hadvance _ ih =>
    subst ha
    obtain ⟨steps, rfl⟩ : ∃ k, steps = k + 1 := ⟨steps - 1, by omega⟩
    rw [Machine.run]
    cases hstep : m.step with
    | next m₁ =>
      rw [advance_next hstep] at hadvance
      cases hadvance
      exact ih (by omega) (by omega) (by omega) rfl hb
    | ask r next =>
      rw [advance_ask hstep] at hadvance
      cases hadvance
      obtain ⟨fuel, rfl⟩ : ∃ k, fuel = k + 1 := ⟨fuel - 1, by omega⟩
      exact ih (by omega) (by omega) (by omega) rfl hb
    | done => rw [advance, hstep] at hadvance; cases hadvance

/-! ## Instructions in turn -/

/-- A function that asks for something and is done when it is told is called in two steps. -/
lemma leadsWithin_ask (m : Machine) {r : Request} {a : r.Answer} {s s' : Scene σ}
    (hanswer : s.answer includePage program r = (a, s'))
    {next : r.Answer → Script.Heap → Script.Outcome (List Script.Val)} {h : Script.Heap}
    (hnext : next a h = .done [] h) (site : Script.Site)
    (after : Script.Heap → Script.Outcome Script.Signal) :
    LeadsWithin includePage program 2
      ((m.push (.call site fun _ h => after h)).goOn
        ((Script.Outcome.ask r h next).bind fun values h => .done (.return values) h), s)
      (m.goOn (after h), s') := by
  have hreturn : ((m.push (.call site fun _ h => after h)).goOn
      ((next a h).bind fun values h => .done (.return values) h)).step =
        .next (m.goOn (after h)) := by
    rw [hnext]
    exact m.step_return site after [] h
  refine .step (advance_ask rfl) (.step (b := (_, s')) ?_ (.refl _ _))
  rw [hanswer]
  exact advance_next hreturn

/-- A call of the host function for an instruction has it carried out and goes on. -/
lemma leadsWithin_caller {m : Machine} (hroom : m.HasRoom) {kind : Script.InstructionKind}
    {i : Int64} {index : Nat} (hi : Script.Val.hostNat (.int i) = .ok index) {s s' : Scene σ}
    (hperform : s.perform program kind index = (true, s')) (site : Script.Site) (h : Script.Heap)
    (after : Script.Heap → Script.Outcome Script.Signal) :
    LeadsWithin includePage program 3
      (m.goOn (.call (.builtin (.host kind.caller)) [.int i] site h fun _ h => after h), s)
      (m.goOn (after h), s') := by
  obtain ⟨next, hrun, hnext⟩ := Script.run_caller kind site hi h
  have hcall := hroom.step_call (.host kind.caller) [.int i] site h after
  rw [hrun] at hcall
  have hanswer : s.answer includePage program (.instruction kind index) = (true, s') := hperform
  exact .step (advance_next hcall) (leadsWithin_ask m hanswer (hnext h) site after)

/-- Carries out an instruction without code. -/
def carryOut (s : Scene σ) : Instruction → Scene σ
  | .emit text => s.onEnv (·.writeRaw text)
  | .rootdir dir => s.onEnv fun env => { env with rootdir := some dir }
  | .workdir dir => s.onEnv fun env => { env with workdirSet := some dir }
  | _ => s

lemma perform_of_kind? {s : Scene σ} {i : Instruction} {kind : Script.InstructionKind} {index : Nat}
    (hi : program[index]? = some i) (hkind : i.kind? = some kind) :
    s.perform program kind index = (true, s.carryOut i) := by
  unfold perform
  cases i <;> cases hkind <;> rw [hi] <;> rfl

/-- **A block that calls instructions one after another** has them carried out in turn. -/
theorem leadsWithin_callsFrom {m : Machine} (hroom : m.HasRoom) {act : Script.Activation}
    {h : Script.Heap} (hknows : act.Knows h) (done : Program) {rest : Program}
    {kinds : List Script.InstructionKind}
    (hkinds : rest.Forall₂ (fun i kind => i.kind? = some kind) kinds) {body : List Script.Stmt}
    (hbody : Script.callsFrom done.length kinds body = true) (s : Scene σ) :
    LeadsWithin includePage (done ++ rest) (3 * kinds.length)
      (m.goOn (Script.Stmt.execAll act none body h), s)
      (m.goOn (.done .normal h), rest.foldl carryOut s) := by
  induction hkinds generalizing done body s with
  | nil =>
    cases body with
    | nil =>
      rw [Script.Stmt.execAll]
      exact .refl _ _
    | cons => cases hbody
  | @cons i kind rest kinds hkind _ ih =>
    cases body with
    | nil => cases hbody
    | cons stmt body =>
      obtain ⟨hstmt, hbody⟩ := Bool.and_eq_true_iff.1 hbody
      obtain ⟨j, line, name, hj, hexec⟩ := Script.execAll_of_isCallOf hknows hstmt body
      have hperform : s.perform (done ++ i :: rest) kind done.length = (true, s.carryOut i) :=
        perform_of_kind? (by simp) hkind
      have hrest := ih (done ++ [i]) (by simpa using hbody) (s.carryOut i)
      rw [List.append_assoc, List.singleton_append] at hrest
      rw [hexec]
      exact (leadsWithin_caller hroom hj hperform _ h _).trans hrest

/-- **A script whose statements are left within so many steps** is driven to its end. -/
lemma drive_of_statements {chunk : Script.Chunk} {h : Script.Heap} {n : Nat} {s s' : Scene σ}
    (hn : n + 2 < maxSteps) (hparameters : chunk.proto.parameters = 0)
    (hlabels : Script.hasLabels chunk.proto.body = false)
    (hfiles : h.files = Script.Files.standardFiles.toArray)
    (hrun : ∀ (m : Machine) (act : Script.Activation) (heap : Script.Heap), m.HasRoom →
      (∀ frame, (m.push frame).HasRoom) → heap.cell (act.upvalueCell 0) = .table heap.globals →
      (∀ name, heap.globalVar name = h.globalVar name) →
      LeadsWithin includePage program n
        (m.goOn (Script.Stmt.execAll act none chunk.proto.body heap), s)
        (m.goOn (.done .normal heap), s')) :
    drive includePage program maxSteps ((Machine.ofChunk chunk h).run maxSteps) s = (none, s') := by
  obtain ⟨m, act, heap, hstart, ⟨hroom, hroom'⟩, ⟨hglobals, hvars⟩, m', hend, heap', hdone⟩ :=
    Machine.exists_ofChunk hparameters hlabels hfiles
  have hlast : LeadsWithin includePage program 1 (m.goOn (.done .normal heap), s') (m', s') :=
    .step (advance_next hend) (.refl _ _)
  have hall : LeadsWithin includePage program (n + 2) (Machine.ofChunk chunk h, s) (m', s') :=
    .step (advance_next hstart)
      (((hrun m act heap hroom hroom' hglobals hvars).trans hlast).mono (by omega))
  exact drive_of_leadsWithin hall hdone hn hn.le hn

/-- **The script of a program without code** carries out its instructions in turn and comes to its
end. -/
theorem drive_ofChunk {chunk : Script.Chunk} {h : Script.Heap} {kinds : List Script.InstructionKind}
    (hkinds : program.Forall₂ (fun i kind => i.kind? = some kind) kinds)
    (hlength : 3 * kinds.length + 2 < maxSteps) (hparameters : chunk.proto.parameters = 0)
    (hbody : Script.callsFrom 0 kinds chunk.proto.body = true)
    (hhost : ∀ kind : Script.InstructionKind,
      h.globalVar kind.spelling = .builtin (.host kind.caller))
    (hfiles : h.files = Script.Files.standardFiles.toArray) (s : Scene σ) :
    drive includePage program maxSteps ((Machine.ofChunk chunk h).run maxSteps) s =
      (none, program.foldl carryOut s) :=
  drive_of_statements hlength hparameters (Script.hasLabels_of_callsFrom hbody) hfiles
    fun _ _ _ hroom _ hglobals hvars =>
      have hknows := ⟨hglobals, fun kind => (hvars kind.spelling).trans (hhost kind)⟩
      leadsWithin_callsFrom hroom hknows [] hkinds hbody s

/-- A template whose script is driven to its end is evaluated. -/
lemma evaluate_of_drive {t : Template} (hevaluator : t.evaluator = .script) {chunk : Script.Chunk}
    (hchunk : t.program.chunk t.name = .ok chunk) {s s' : Scene σ}
    (hdrive : drive Scene.includePage t.program maxSteps
      (((s.onEnv (·.enter t)).machine t.program chunk).run maxSteps) (s.onEnv (·.enter t)) =
        (none, s')) :
    s.evaluate t = (.ok (), s'.onEnv fun env => { env with running := s.env.running }) := by
  rw [evaluate, evaluateWith, hevaluator]
  simp only [runProgram, hchunk]
  rw [hdrive]

end Scene

end BracketTemplate
