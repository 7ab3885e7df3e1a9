import Mathlib
import BracketTemplate.Proofs.Asking.Builtin
import BracketTemplate.Proofs.Asking.Code
import BracketTemplate.Script.Startup

/-!
# What the machine asks for

A machine asks the host for what the acts ask for that it runs, and these come from the functions
that it calls.  A function of the script asks for nothing, a builtin function with a state for
nothing that has to do with the template, and every other builtin function for what it is there for.
So what a machine asks for is bounded by the builtin functions that it calls on its way:
`Machine.called?` is the one, if any, that a state calls.

All that a state waits with is bounded along with what it is at (`Machine.Asks`), and a step keeps
the bound as long as it calls only functions which keep to it (`Machine.Asks.step`).
-/

namespace BracketTemplate.Script

variable {allowed : Request → Prop}

/-! ## Calls -/

/-- The builtin function that a call of a value comes to, if it does. -/
def builtinOf (h : Heap) : Nat → Val → Option Builtin
  | 0, _ => none
  | fuel + 1, fn =>
    match fn with
    | .builtin f => some f
    | .closure _ | .native _ => none
    | _ =>
      match h.metafield fn "__call" with
      | .nil => none
      | handler => builtinOf h fuel handler

namespace Machine

/-- The value that a state calls, if it calls one, and the heap on which it does. -/
def callee? (m : Machine) : Option (Val × Heap) :=
  match m.focus with
  | .call fn _ _ h _ => some (fn, h)
  | .guard fn _ _ h _ => some (fn, h)
  | .done (.tailCall fn _ _) h =>
    match m.frames with
    | .call .. :: _ | .guard .. :: _ | .handling .. :: _ => some (fn, h)
    | _ => none
  | .fail _ h =>
    match m.frames with
    | .guard (some handler) _ :: _ => some (handler, h)
    | _ => none
  | .control (.resume id _) h _ =>
    match (m.thread id).resumption with
    | .start fn => some (fn, h)
    | .goOn _ => none
  | _ => none

/-- The builtin function that a state calls, if it calls one. -/
def called? (m : Machine) : Option Builtin :=
  m.callee?.bind fun (fn, h) => builtinOf h maxCallChain fn

end Machine

/-- Every request that a builtin function makes is allowed. -/
def Builtin.Keeps (allowed : Request → Prop) (f : Builtin) : Prop := ∀ r, f.Makes r → allowed r

/-- What a call comes to asks for what the builtin function behind it does. -/
lemma asks_start (hprocess : ∀ r, Request.OfProcess r → allowed r) (site : Site) (fuel : Nat)
    (fn : Val) (args : List Val) (h : Heap)
    (hkeeps : ∀ f, builtinOf h fuel fn = some f → f.Keeps allowed) :
    (Machine.start site fuel fn args h).Asks allowed := by
  induction fuel generalizing fn args with
  | zero => trivial
  | succ fuel ih =>
    have hreturn (values : List Val) (heap : Heap) :
        (Outcome.done (Signal.return values) heap).Asks allowed := trivial
    unfold Machine.start
    unfold builtinOf at hkeeps
    cases fn
    case closure id => exact Closure.asks_run _ _ h
    case builtin f => exact (((f.asks_run site args).mono (hkeeps f rfl)) h).bind hreturn
    case native id => exact ((Native.asks_run id _ site args).mono hprocess h).bind hreturn
    all_goals
      dsimp only at hkeeps ⊢
      split
      · exact Operation.asks_failType _ _ _ _ h
      · next handler hsome =>
        refine ih _ _ fun f hf => hkeeps f ?_
        rw [← hf]
        split
        · next hnone => exact absurd hnone hsome
        · rfl

/-! ## States -/

/-- Whatever it is given, what goes on with it makes allowed requests only. -/
def Next.Asks {α : Type} (allowed : Request → Prop) (next : Next α) : Prop :=
  ∀ a h, (next a h).Asks allowed

/-- What a frame waits with makes allowed requests only. -/
def Frame.Asks (allowed : Request → Prop) : Frame → Prop
  | call _ next => Next.Asks allowed next
  | code next => Next.Asks allowed next
  | guard _ next | handling next | resumed next => Next.Asks allowed next
  | closing _ => True

/-- What a coroutine goes on with makes allowed requests only. -/
def Resumption.Asks (allowed : Request → Prop) : Resumption → Prop
  | start _ => True
  | goOn next => Next.Asks allowed next

/-- All that a coroutine waits with makes allowed requests only. -/
structure Thread.Asks (allowed : Request → Prop) (t : Thread) : Prop where
  resumption : t.resumption.Asks allowed
  frames : ∀ f ∈ t.frames, f.Asks allowed

/-- What a state is at, and all that it waits with, makes allowed requests only. -/
structure Machine.Asks (allowed : Request → Prop) (m : Machine) : Prop where
  focus : m.focus.Asks allowed
  frames : ∀ f ∈ m.frames, f.Asks allowed
  threads : ∀ id, (m.thread id).Asks allowed

namespace Machine

variable {m : Machine} {focus : Outcome Signal} {f : Frame} {rest : List Frame} {h : Heap}

/-! ## Moving on -/

lemma Asks.goOn (hm : m.Asks allowed) (hfocus : focus.Asks allowed) :
    (m.goOn focus).Asks allowed :=
  ⟨hfocus, hm.frames, hm.threads⟩

lemma Asks.push (hm : m.Asks allowed) (hf : f.Asks allowed) : (m.push f).Asks allowed :=
  ⟨hm.focus, List.forall_mem_cons.2 ⟨hf, hm.frames⟩, hm.threads⟩

lemma Asks.pop (hm : m.Asks allowed) (hrest : ∀ f ∈ rest, f.Asks allowed) :
    (m.pop f rest).Asks allowed :=
  ⟨hm.focus, hrest, hm.threads⟩

lemma asks_return : Next.Asks allowed (fun (values : List Val) h => .done (.return values) h) :=
  fun _ _ => trivial

/-- A call asks for what the builtin function behind it does. -/
lemma Asks.call (hm : m.Asks allowed) (hprocess : ∀ r, Request.OfProcess r → allowed r)
    (hf : f.Asks allowed) {fn : Val} (args : List Val) (site : Site)
    (hkeeps : ∀ b, builtinOf h maxCallChain fn = some b → b.Keeps allowed) :
    (m.call f fn args site h).Asks allowed := by
  unfold Machine.call
  split
  · exact hm.goOn (asks_siteThrow _ _ h)
  split
  · exact hm.goOn (asks_siteThrow _ _ h)
  · exact (hm.push hf).goOn (asks_start hprocess _ _ _ _ _ hkeeps)

lemma Asks.tailCall (hm : m.Asks allowed) (hprocess : ∀ r, Request.OfProcess r → allowed r)
    {fn : Val} (args : List Val) (site : Site)
    (hkeeps : ∀ b, builtinOf h maxCallChain fn = some b → b.Keeps allowed) :
    (m.tailCall fn args site h).Asks allowed := by
  unfold Machine.tailCall
  split
  · exact hm.goOn (asks_start hprocess _ _ _ _ _ hkeeps)
  · refine hm.call hprocess ?_ args site hkeeps
    exact asks_return

/-! ## Closing -/

lemma asks_close (value error : Val) (h : Heap) {next : Heap → Outcome Signal}
    (hnext : ∀ h, (next h).Asks allowed) : (close value error h next).Asks allowed := by
  unfold close
  split
  · exact hnext h
  split
  · exact hnext h
  · exact fun _ heap => hnext heap

lemma asks_closeAll {next : Next (Except Val (List Val))} (hnext : next.Asks allowed)
    (values : List Val) (error : Option Val) (h : Heap) :
    (closeAll next values error h).Asks allowed := by
  induction values generalizing error h with
  | nil => cases error <;> exact hnext _ _
  | cons v rest ih =>
    unfold closeAll
    split
    · exact ih _ _
    · intro result heap
      cases result <;> exact ih _ _

/-! ## Coroutines -/

lemma asks_threads_setThread (hm : ∀ id, (m.thread id).Asks allowed) {t : Thread}
    (ht : t.Asks allowed) (id id' : Nat) : ((m.setThread id t).thread id').Asks allowed := by
  unfold setThread thread
  rw [Array.getElem?_setIfInBounds]
  split
  · split
    · exact ht
    · exact ⟨fun _ _ => trivial, by simp [default]⟩
  · exact hm id'

lemma Asks.setThread (hm : m.Asks allowed) {t : Thread} (ht : t.Asks allowed) (id : Nat) :
    (m.setThread id t).Asks allowed :=
  ⟨hm.focus, hm.frames, asks_threads_setThread hm.threads ht id⟩

lemma Asks.putAside (hm : m.Asks allowed) (status : ThreadStatus) {frames : List Frame}
    (hframes : ∀ f ∈ frames, f.Asks allowed) {next : Next (List Val)} (hnext : next.Asks allowed) :
    (m.putAside status frames next).Asks allowed := by
  refine hm.setThread ?_ _
  exact ⟨hnext, hframes⟩

lemma Asks.giveBack (hm : m.Asks allowed) (result : Except Val (List Val)) (h : Heap) :
    (m.giveBack result h).Asks allowed := by
  have hparent := (hm.threads (m.thread m.current).parent).frames
  unfold Machine.giveBack
  dsimp only
  split
  · next next rest hframes =>
    rw [hframes] at hparent
    obtain ⟨hnext, hrest⟩ := List.forall_mem_cons.1 hparent
    exact ⟨hnext _ _, hrest, hm.threads⟩
  · exact ⟨hm.focus, hparent, hm.threads⟩

lemma Asks.endThread (hm : m.Asks allowed) (result : Except Val (List Val)) (h : Heap) :
    (m.endThread result h).Asks allowed := by
  refine Asks.giveBack ?_ result h
  refine hm.setThread ?_ _
  exact ⟨(hm.threads m.current).resumption, by simp⟩

lemma Asks.resume (hm : m.Asks allowed) (hprocess : ∀ r, Request.OfProcess r → allowed r)
    (id : Nat) (args : List Val) {next : Next (Except Val (List Val))} (hnext : next.Asks allowed)
    (hkeeps : ∀ fn b, (m.thread id).resumption = .start fn →
      builtinOf h maxCallChain fn = some b → b.Keeps allowed) :
    (m.resume id args h next).Asks allowed := by
  have hresumed := hm.threads id
  unfold Machine.resume
  dsimp only
  split
  · split
    · exact hm.goOn (hnext _ _)
    have hframe : (Frame.resumed next).Asks allowed := hnext
    have hwaits : (m.putAside .normal (.resumed next :: m.frames) fun _ h => .done .normal h).Asks
        allowed :=
      hm.putAside .normal (List.forall_mem_cons.2 ⟨hframe, hm.frames⟩) fun _ _ => trivial
    refine ⟨?focus, hresumed.frames, asks_threads_setThread hwaits.threads ?thread id⟩
    case thread => exact ⟨hresumed.resumption, hresumed.frames⟩
    case focus =>
      show (enter args h (m.thread id).resumption).Asks allowed
      cases hentry : (m.thread id).resumption with
      | start fn => exact asks_start hprocess _ _ _ _ _ fun b => hkeeps fn b hentry
      | goOn next' =>
        have hentered := hresumed.resumption
        rw [hentry] at hentered
        exact hentered args h
  · exact hm.goOn (hnext _ _)
  · exact hm.goOn (hnext _ _)

lemma Asks.yield (hm : m.Asks allowed) (values : List Val) (h : Heap)
    {next : Next (Except Val (List Val))} (hnext : next.Asks allowed) :
    (m.yield values h next).Asks allowed := by
  unfold Machine.yield
  dsimp only
  split
  · exact hm.goOn (hnext _ _)
  split
  · exact hm.goOn (hnext _ _)
  · exact (hm.putAside .suspended hm.frames fun args h => hnext _ _).giveBack _ h

lemma Asks.closeThread (hm : m.Asks allowed) (id : Nat) (h : Heap)
    {next : Next (Except Val (List Val))} (hnext : next.Asks allowed) :
    (m.closeThread id h next).Asks allowed := by
  refine Asks.goOn (hm.setThread ?_ _) (asks_closeAll hnext _ _ _)
  exact ⟨(hm.threads id).resumption, by simp⟩

lemma Asks.create (hm : m.Asks allowed) (fn : Val) :
    { m with threads := m.threads.push (newThread fn) }.Asks allowed := by
  refine ⟨hm.focus, hm.frames, fun id => ?_⟩
  unfold thread
  rw [Array.getElem?_push]
  split
  · exact ⟨trivial, by simp [newThread, Frame.Asks, asks_return]⟩
  · exact hm.threads id

lemma Asks.control (hm : m.Asks allowed) (hprocess : ∀ r, Request.OfProcess r → allowed r)
    (c : Control) {next : Next (Except Val (List Val))} (hnext : next.Asks allowed)
    (hfocus : m.focus = .control c h next)
    (hkeeps : ∀ b, m.called? = some b → b.Keeps allowed) :
    (m.control c h next).Asks allowed := by
  cases c with
  | resume id args =>
    refine hm.resume hprocess id args hnext fun fn b hstart hb => hkeeps b ?_
    simp only [called?, callee?, hfocus, hstart, Option.bind_some, hb]
  | create fn => exact (hm.create fn).goOn (hnext _ _)
  | yield values => exact hm.yield values h hnext
  | close id => exact hm.closeThread id h hnext
  | place level =>
    unfold Machine.control
    dsimp only
    split <;> exact hm.goOn (hnext _ _)
  | status | running | isYieldable => exact hm.goOn (hnext _ _)

/-! ## Steps -/

lemma Asks.leave (hm : m.Asks allowed) (hprocess : ∀ r, Request.OfProcess r → allowed r)
    (s : Signal) (hfocus : m.focus = .done s h) (hframes : m.frames = f :: rest)
    (hkeeps : ∀ b, m.called? = some b → b.Keeps allowed) : (m.leave s h f rest).Asks allowed := by
  have hwaits := hm.frames
  rw [hframes] at hwaits
  obtain ⟨hf, hrest⟩ := List.forall_mem_cons.1 hwaits
  have hbelow : (m.pop f rest).Asks allowed := hm.pop hrest
  have hcalled {fn : Val} {args : List Val} {site : Site} (hs : s = .tailCall fn args site)
      (hcall : f.isCall = true) (b : Builtin) (hb : builtinOf h maxCallChain fn = some b) :
      b.Keeps allowed := by
    refine hkeeps b ?_
    subst hs
    cases f
    case call | guard | handling =>
      simp only [called?, callee?, hfocus, hframes, Option.bind_some, hb]
    all_goals cases hcall
  unfold Machine.leave
  dsimp only
  split
  · exact hm.tailCall hprocess _ _ (hcalled rfl rfl)
  · exact hbelow.goOn (hf _ _)
  · exact hm.goOn (Code.asks_perform _ h)
  · exact hbelow.goOn (hf _ _)
  · exact hm.tailCall hprocess _ _ (hcalled rfl rfl)
  · exact hbelow.goOn (hf _ _)
  · exact hm.tailCall hprocess _ _ (hcalled rfl rfl)
  · exact hbelow.goOn (hf _ _)
  · exact hbelow.goOn (asks_close _ _ _ fun _ => trivial)
  · exact hbelow.goOn (hf _ _)

lemma Asks.unwind (hm : m.Asks allowed) (hprocess : ∀ r, Request.OfProcess r → allowed r)
    (e : Val) (hfocus : m.focus = .fail e h) (hframes : m.frames = f :: rest)
    (hkeeps : ∀ b, m.called? = some b → b.Keeps allowed) : (m.unwind e h f rest).Asks allowed := by
  have hwaits := hm.frames
  rw [hframes] at hwaits
  obtain ⟨hf, hrest⟩ := List.forall_mem_cons.1 hwaits
  have hbelow : (m.pop f rest).Asks allowed := hm.pop hrest
  unfold Machine.unwind
  dsimp only
  split
  · exact hbelow.goOn (hf _ _)
  · next handler next =>
    refine (hbelow.push ?_).goOn (asks_start hprocess _ _ _ _ _ fun b hb => hkeeps b ?_)
    · exact hf
    · simp only [called?, callee?, hfocus, hframes, Option.bind_some, hb]
  · exact hbelow.goOn (hf _ _)
  · exact hbelow.goOn (asks_close _ _ _ fun _ => trivial)
  · exact hbelow

/-- What a step comes to makes allowed requests only. -/
def Step.Asks (allowed : Request → Prop) : Step → Prop
  | .next m => m.Asks allowed
  | .ask r onwards => allowed r ∧ ∀ a, (onwards a).Asks allowed
  | .done _ _ => True

/-- **A step asks for allowed things only**, and so does all that it waits with, unless it calls a
builtin function that does not. -/
theorem Asks.step (hm : m.Asks allowed) (hprocess : ∀ r, Request.OfProcess r → allowed r)
    (hkeeps : ∀ b, m.called? = some b → b.Keeps allowed) : m.step.Asks allowed := by
  have hwants := hm.focus
  unfold Machine.step
  split
  · next s h hfocus =>
    split
    · next f rest hframes => exact hm.leave hprocess s hfocus hframes hkeeps
    split
    · trivial
    · exact hm.endThread _ _
  · next e h hfocus =>
    split
    · next f rest hframes => exact hm.unwind hprocess e hfocus hframes hkeeps
    split
    · trivial
    · exact hm.endThread _ _
  · next fn args site h next hfocus =>
    rw [hfocus] at hwants
    refine hm.call hprocess ?_ args site fun b hb => hkeeps b ?_
    · exact hwants
    · simp only [called?, callee?, hfocus, Option.bind_some, hb]
  · next code h next hfocus =>
    rw [hfocus] at hwants
    have hentered : (m.push (.code next)).Asks allowed := hm.push hwants
    cases code with
    | closing value inner =>
      refine (hentered.push ?_).goOn (Code.asks_perform _ h)
      exact trivial
    | _ => exact hentered.goOn (Code.asks_perform _ h)
  · next fn args handler h next hfocus =>
    rw [hfocus] at hwants
    refine hm.call hprocess ?_ args _ fun b hb => hkeeps b ?_
    · exact hwants
    · simp only [called?, callee?, hfocus, Option.bind_some, hb]
  · next c h next hfocus =>
    rw [hfocus] at hwants
    exact hm.control hprocess c hwants hfocus hkeeps
  · next request h next hfocus =>
    rw [hfocus] at hwants
    exact ⟨hwants.1, fun a => hm.goOn (hwants.2 a h)⟩

/-! ## Scripts -/

/-- A machine that performs an act asks for what the act does. -/
lemma asks_ofAct {a : Act (List Val)} (ha : a.Asks allowed) (h : Heap) :
    (ofAct a h).Asks allowed := by
  refine ⟨(ha h).bind fun _ _ => trivial, by simp [ofAct], fun id => ?_⟩
  unfold thread ofAct
  cases id with
  | zero => exact ⟨fun _ _ => trivial, by simp [default]⟩
  | succ id => exact ⟨fun _ _ => trivial, by simp [default]⟩

/-- What runs a script has itself to do with nothing but the process. -/
lemma asks_runScript (fn : Val) : (runScript fn).Asks Request.OfProcess := by
  unfold runScript
  refine asks_bind (asks_guard _ _ _) fun result => ?_
  cases result with
  | ok values =>
    exact asks_bind (asks_pure _) fun _ => asks_bind Files.asks_finish fun _ => asks_pure _
  | error e =>
    refine asks_bind (asks_reportOf e) fun report => asks_bind (asks_pure _) fun _ => ?_
    exact asks_bind Files.asks_finish fun _ => asks_pure _

/-- At its start a script waits with nothing but what ends it. -/
lemma asks_ofChunk (hprocess : ∀ r, Request.OfProcess r → allowed r) (chunk : Chunk) (h : Heap) :
    (ofChunk chunk h).Asks allowed :=
  asks_ofAct ((asks_runScript _).mono hprocess) _

end Machine

end BracketTemplate.Script
