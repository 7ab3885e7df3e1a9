import Mathlib
import BracketTemplate.Project.Config
import BracketTemplate.Proofs.Asking.Machine
import BracketTemplate.Proofs.Evaluation.Isolation
import BracketTemplate.Proofs.Evaluation.Visiting
import BracketTemplate.Proofs.Text.Html

/-!
# What is written is literal or escaped

The functions that write texts as they are, are those of raw output: the one behind raw print
regions, and the raw forms of output.  So long as none of them is called, neither in a template nor
in a page that it includes, the output is put together from pieces of two kinds: literal texts of
the templates that are executed, and escaped texts (`Scene.evaluation_escapes`).

What is called is looked up in the states that an evaluation comes to.  No function but the raw ones
asks to write a text as it is (`Script.keeps_escaped`), what a state asks for is what the functions
called on its way ask for, and so each answer adds pieces of these kinds.  The output of a page that
is included is written as it is; it consists of such pieces by the same argument for the page.
-/

namespace BracketTemplate

variable {σ : Type}

/-! ## Requests -/

namespace Script

/-- Requests that write no text as it is. -/
def Request.Escaped : Request → Prop
  | .write raw _ => raw = false
  | _ => True

/-- The builtin functions that write texts as they are. -/
def Builtin.isRaw : Builtin → Bool
  | .host (.printValue raw) | .host (.output _ raw) => raw
  | _ => false

lemma Request.OfProcess.escaped {r : Request} (h : r.OfProcess) : r.Escaped := by
  cases r with
  | write => exact h.elim
  | _ => trivial

/-- **No function but the raw ones** asks to write a text as it is. -/
theorem keeps_escaped {f : Builtin} (h : f.isRaw = false) : f.Keeps Request.Escaped := by
  intro r hmakes
  cases f with
  | host f =>
    cases f with
    | printValue raw | output form raw =>
      obtain ⟨text, rfl⟩ := hmakes
      exact h
    | text | rootdirAt | workdirAt | «include» | get | registered =>
      obtain ⟨_, rfl⟩ := hmakes
      trivial
    | set =>
      obtain ⟨_, _, rfl⟩ := hmakes
      trivial
    | rootdir | workdir =>
      cases hmakes
      trivial
  | base | string | table | math | utf8 | os | io | coroutine =>
    exact Request.OfProcess.escaped hmakes

end Script

namespace Scene

open Script (Machine Request Builtin)

/-! ## Pieces -/

/-- What has been written between two scenes consists of pieces of some kind, and texts are escaped
as before. -/
structure Writes (kind : String → Prop) (before after : Scene σ) : Prop where
  pieces : ∃ pieces : List String,
    after.env.output = before.env.output ++ String.join pieces ∧ ∀ p ∈ pieces, kind p
  escape : after.env.escape = before.env.escape

variable {kind : String → Prop} {s s₁ s₂ s₃ : Scene σ} {program : Program}
  {includePage : String → Scene σ → Scene σ}

lemma Writes.none (houtput : s₂.env.output = s₁.env.output)
    (hescape : s₂.env.escape = s₁.env.escape) : s₁.Writes kind s₂ :=
  ⟨⟨[], by simp [houtput], by simp⟩, hescape⟩

lemma Writes.one {p : String} (hp : kind p) (houtput : s₂.env.output = s₁.env.output ++ p)
    (hescape : s₂.env.escape = s₁.env.escape) : s₁.Writes kind s₂ :=
  ⟨⟨[p], by simp [houtput], by simpa using hp⟩, hescape⟩

lemma Writes.trans (h : s₁.Writes kind s₂) (k : s₂.Writes kind s₃) : s₁.Writes kind s₃ := by
  obtain ⟨pieces, houtput, hpieces⟩ := h.pieces
  obtain ⟨pieces', houtput', hpieces'⟩ := k.pieces
  refine ⟨⟨pieces ++ pieces', ?_, ?_⟩, k.escape.trans h.escape⟩
  · rw [houtput', houtput, String.join_append, String.append_assoc]
  · exact List.forall_mem_append.2 ⟨hpieces, hpieces'⟩

lemma Writes.mono {wider : String → Prop} (h : s₁.Writes kind s₂) (hkind : ∀ p, kind p → wider p) :
    s₁.Writes wider s₂ := by
  obtain ⟨pieces, houtput, hpieces⟩ := h.pieces
  exact ⟨⟨pieces, houtput, fun p hp => hkind p (hpieces p hp)⟩, h.escape⟩

lemma writes_perform (hemit : ∀ p, .emit p ∈ program → kind p) (s : Scene σ)
    (k : Script.InstructionKind) (index : Nat) : s.Writes kind (s.perform program k index).2 := by
  unfold perform
  split
  · next text hinstruction => exact .one (hemit text (List.mem_of_getElem? hinstruction)) rfl rfl
  · exact .none rfl rfl
  · exact .none rfl rfl
  · exact .none rfl rfl

lemma writes_bind (s : Scene σ) (name : String) (value : Value) :
    s.Writes kind (s.bind name value).2 := by
  unfold bind
  split
  · next env hset =>
    obtain ⟨_, -, hset⟩ := Source.bind_eq_ok.1 hset
    cases hset
    exact .none rfl rfl
  · exact .none rfl rfl

lemma writes_invoke (s : Scene σ) (name : String) (args : List Value) :
    s.Writes kind (s.invoke name args).2 := by
  unfold invoke Environment.call
  dsimp only
  split
  · exact .none rfl rfl
  split
  · exact .none rfl rfl
  split
  · exact .none rfl rfl
  split <;> exact .none rfl rfl

/-- **An answer adds pieces of a kind**, when the literal texts of the program are of the kind and
escaped texts are, and includes add such pieces. -/
lemma writes_answer (hemit : ∀ p, .emit p ∈ program → kind p)
    (hescape : ∀ text, kind (s.env.escape text)) {r : Request} (hr : r.Escaped)
    (hinclude : ∀ name, r = .includePage name → s.Writes kind (includePage name s)) :
    s.Writes kind (s.answer includePage program r).2 := by
  cases r with
  | write raw text =>
    cases hr
    exact .one (hescape text) rfl rfl
  | instruction k index => exact s.writes_perform hemit k index
  | includePage name => exact hinclude name rfl
  | bind name value => exact s.writes_bind name value
  | invoke name args => exact s.writes_invoke name args
  | openFile path mode => cases mode <;> exact .none rfl rfl
  | rootdir | workdir | binding | readFile | writeFile | console | now => exact .none rfl rfl

/-! ## Evaluations -/

/-- The evaluation of a template calls a builtin function, itself or in a page that it includes. -/
def Calls (depth : Nat) (t : Template) (s : Scene σ) (f : Builtin) : Prop :=
  ∃ inner u s' m s'', Evaluates depth t s inner u s' ∧ Visits inner u s' m s'' ∧ m.called? = some f

/-- A template is executed in the evaluation of a template: itself, or as that of a page. -/
def Executes (depth : Nat) (t : Template) (s : Scene σ) (u : Template) : Prop :=
  ∃ inner s', Evaluates depth t s inner u s'

/-- A piece of output is a literal text of a template that is executed, or an escaped text. -/
def Piece (depth : Nat) (t : Template) (s : Scene σ) (p : String) : Prop :=
  (∃ u, Executes depth t s u ∧ .emit p ∈ u.program) ∨ ∃ text, p = s.env.escape text

lemma asks_start {t : Template} {m : Machine} {s' : Scene σ} (h : start t s = some (m, s')) :
    m.Asks Request.Escaped ∧ s' = s.onEnv (·.enter t) := by
  unfold start at h
  split at h
  · cases h
    exact ⟨Machine.asks_ofChunk (fun _ => Request.OfProcess.escaped) _ _, rfl⟩
  · cases h

/-- A page that is included adds the pieces of its own output, or the mark, escaped. -/
lemma writes_includePageWithin {depth : Nat} {name : String}
    (hescape : ∀ text, kind (s.env.escape text))
    (hpage : ∀ u env world, s.pageWithin name = (.ok (u, env), world) →
      Writes kind ⟨env, world⟩ (evaluateWith (includePageWithin depth) u ⟨env, world⟩).2) :
    s.Writes kind (s.includePageWithin (depth + 1) name) := by
  rw [includePageWithin, includeWith]
  unfold pageOutput
  rcases hresult : s.pageWithin name with ⟨e | ⟨u, env⟩, world⟩
  · exact .one (hescape (includeMark name)) rfl rfl
  · obtain ⟨file, rfl⟩ := exists_deriveFor hresult
    have hwritten := (hpage u _ world hresult).pieces
    dsimp only
    rcases heval : evaluateWith (includePageWithin depth) u ⟨s.env.deriveFor file, world⟩ with
      ⟨e | _, after⟩
    · exact .one (hescape (includeMark name)) rfl rfl
    · rw [heval] at hwritten
      obtain ⟨pieces, houtput, hpieces⟩ := hwritten
      have hwhole : after.env.output = String.join pieces :=
        houtput.trans String.empty_append
      exact ⟨⟨pieces, congrArg (s.env.output ++ ·) hwhole, hpieces⟩, rfl⟩

/-- What the states that an evaluation comes to have been written to, the scene has that it stops
with. -/
lemma writes_evaluateWith {depth : Nat} {t : Template}
    (h : ∀ m s', Visits depth t s m s' → s.Writes kind s') :
    s.Writes kind (evaluateWith (includePageWithin depth) t s).2 := by
  obtain ⟨s', hreached, hafter⟩ := exists_visits_evaluateWith depth t s
  have hwritten : s.Writes kind s' := by
    rcases hreached with rfl | ⟨m, hvisits⟩
    · exact .none rfl rfl
    · exact h m s' hvisits
  rw [hafter]
  exact hwritten.trans (.none rfl rfl)

/-- The states that an evaluation comes to are written to in pieces, if includes add such. -/
lemma writes_leads {depth : Nat} {t : Template} {s : Scene σ}
    (hraw : ∀ f, Calls depth t s f → f.isRaw = false)
    (hinclude : ∀ (m : Machine) s' name next, Visits depth t s m s' →
      m.step = .ask (.includePage name) next → s'.env.escape = s.env.escape →
      s'.Writes (Piece depth t s) (s'.includePageWithin depth name))
    {m : Machine} {s' : Scene σ} (hvisits : Visits depth t s m s') :
    m.Asks Request.Escaped ∧ s.Writes (Piece depth t s) s' := by
  obtain ⟨⟨m₀, s₀⟩, hstart, hleads⟩ := hvisits
  suffices hstate : ∀ b, Leads (includePageWithin depth) t.program (m₀, s₀) b →
      b.1.Asks Request.Escaped ∧ s.Writes (Piece depth t s) b.2 from hstate _ hleads
  intro b hleads
  induction hleads with
  | refl =>
    obtain ⟨hasks, rfl⟩ := asks_start hstart
    exact ⟨hasks, .none rfl rfl⟩
  | @tail a b hleads hadvance ih =>
    obtain ⟨m₁, s₁⟩ := a
    obtain ⟨hasks, hwrites⟩ := ih
    have hvisits : Visits depth t s m₁ s₁ := ⟨_, hstart, hleads⟩
    have hstep := hasks.step (fun _ => Request.OfProcess.escaped) fun f hf =>
      Script.keeps_escaped (hraw f ⟨_, _, _, _, _, .itself depth t s, hvisits, hf⟩)
    cases hnext : m₁.step with
    | next m' =>
      rw [advance_next hnext] at hadvance
      rw [hnext] at hstep
      cases hadvance
      exact ⟨hstep, hwrites⟩
    | ask r next =>
      rw [advance_ask hnext] at hadvance
      rw [hnext] at hstep
      cases hadvance
      refine ⟨hstep.2 _, hwrites.trans (writes_answer (fun p hp => ?_) (fun text => ?_) hstep.1 ?_)⟩
      · exact .inl ⟨t, ⟨_, _, .itself depth t s⟩, hp⟩
      · exact .inr ⟨text, by rw [hwrites.escape]⟩
      · rintro name rfl
        exact hinclude m₁ s₁ name next hvisits hnext hwrites.escape
    | done result heap =>
      rw [advance, hnext] at hadvance
      cases hadvance

/-- **Every state that an evaluation comes to** has been written to in pieces, literal or
escaped. -/
theorem writes_visits (depth : Nat) (t : Template) (s : Scene σ)
    (hraw : ∀ f, Calls depth t s f → f.isRaw = false) {m : Machine} {s' : Scene σ}
    (hvisits : Visits depth t s m s') : s.Writes (Piece depth t s) s' := by
  induction depth generalizing t s m s' with
  | zero =>
    refine (writes_leads hraw (fun m s' name next _ _ hescape => ?_) hvisits).2
    rw [includePageWithin]
    exact .one (.inr ⟨includeMark name, by rw [hescape]⟩) rfl rfl
  | succ depth ih =>
    refine (writes_leads hraw (fun m s' name next hvisits hask hescape => ?_) hvisits).2
    refine writes_includePageWithin (fun text => .inr ⟨text, by rw [hescape]⟩)
      fun u env world hpage => ?_
    -- what the page calls and executes, the including page does at this place
    have hinner {inner : Nat} {v : Template} {s'' : Scene σ}
        (h : Evaluates depth u ⟨env, world⟩ inner v s'') : Evaluates (depth + 1) t s inner v s'' :=
      .included hvisits hask hpage h
    have hrawInner (f : Builtin) (hf : Calls depth u ⟨env, world⟩ f) : f.isRaw = false := by
      obtain ⟨inner, v, s'', m', s₃, hevaluates, hcalls⟩ := hf
      exact hraw f ⟨inner, v, s'', m', s₃, hinner hevaluates, hcalls⟩
    refine (writes_evaluateWith fun m' s'' => ih u ⟨env, world⟩ hrawInner).mono fun p hp => ?_
    rcases hp with ⟨v, ⟨inner, s'', hevaluates⟩, hemit⟩ | ⟨text, rfl⟩
    · exact .inl ⟨v, ⟨inner, s'', hinner hevaluates⟩, hemit⟩
    · obtain ⟨file, rfl⟩ := exists_deriveFor hpage
      exact .inr ⟨text, congrFun hescape text⟩

/-- **What is written is literal or escaped.**  When no raw function is called in the evaluation of
a template, nor in the evaluations of the pages that it includes at any depth, everything that the
evaluation has added to the output at its end, and at any state on the way, is a row of pieces each
of which is a literal text of a template that is executed or an escaped text.  When the environment
escapes for HTML, every piece that has markup in it is such a literal text. -/
theorem evaluation_escapes (t : Template) (s : Scene σ)
    (hraw : ∀ f, Calls maxIncludes t s f → f.isRaw = false) (s' : Scene σ)
    (hreached : s' = (s.evaluate t).2 ∨ ∃ m, Visits maxIncludes t s m s') :
    ∃ pieces : List String, s'.env.output = s.env.output ++ String.join pieces ∧
      (∀ p ∈ pieces, (∃ u, Executes maxIncludes t s u ∧ .emit p ∈ u.program) ∨
        ∃ text, p = s.env.escape text) ∧
      (s.env.escape = Config.EscapeMode.apply .html →
        ∀ p ∈ pieces, ∀ c ∈ p.toList, c ∈ Html.markup →
        ∃ u, Executes maxIncludes t s u ∧ .emit p ∈ u.program) := by
  have hvisits (m : Machine) (s' : Scene σ) (h : Visits maxIncludes t s m s') :
      s.Writes (Piece maxIncludes t s) s' := writes_visits maxIncludes t s hraw h
  have hwrites : s.Writes (Piece maxIncludes t s) s' := by
    rcases hreached with rfl | ⟨m, h⟩
    · exact writes_evaluateWith hvisits
    · exact hvisits m s' h
  obtain ⟨pieces, houtput, hpieces⟩ := hwrites.pieces
  refine ⟨pieces, houtput, hpieces, fun hhtml p hp c hc hmarkup => ?_⟩
  rcases hpieces p hp with hliteral | ⟨text, rfl⟩
  · exact hliteral
  · rw [hhtml, Config.EscapeMode.apply, String.toList_ofList] at hc
    exact absurd hc (Html.not_mem_escape hmarkup _)

/-! ## Following an evaluation -/

/-- Whether an evaluation ends within so many steps, and all its states until then are of a kind. -/
def follows (kind : Machine × Scene σ → Bool) (includePage : String → Scene σ → Scene σ)
    (program : Program) : Nat → Machine × Scene σ → Bool
  | 0, _ => false
  | fuel + 1, a =>
    kind a && match advance includePage program a with
      | some b => follows kind includePage program fuel b
      | none => true

/-- Whether a state calls no raw function, and neither does the page that it includes, if it
does. -/
def isEscaped (inner : Template → Scene σ → Bool) : Machine × Scene σ → Bool
  | (m, s) =>
    !m.called?.any Builtin.isRaw && match m.step with
      | .ask (.includePage name) _ =>
        match s.pageWithin name with
        | (.ok (u, env), world) => inner u ⟨env, world⟩
        | (.error _, _) => true
      | _ => true

/-- Whether the evaluation of a template ends within so many steps, those of the pages that it
includes do, and no raw function is called in any of them. -/
def escapesWithin (fuel : Nat) : Nat → Template → Scene σ → Bool
  | 0, t, s =>
    (start t s).all (follows (isEscaped fun _ _ => true) (includePageWithin 0) t.program fuel)
  | depth + 1, t, s =>
    (start t s).all
      (follows (isEscaped (escapesWithin fuel depth)) (includePageWithin (depth + 1))
        t.program fuel)

lemma follows_leads {kind : Machine × Scene σ → Bool} {fuel : Nat} {a b : Machine × Scene σ}
    (h : follows kind includePage program fuel a = true) (hleads : Leads includePage program a b) :
    kind b = true := by
  induction fuel generalizing a with
  | zero => cases h
  | succ fuel ih =>
    obtain ⟨hkind, hrest⟩ := (Bool.and_eq_true_iff).1 h
    rcases hleads.cases_head with rfl | ⟨c, hadvance, hleads⟩
    · exact hkind
    · rw [hadvance] at hrest
      exact ih hrest hleads

lemma isEscaped_visits {fuel depth : Nat} {t : Template} {m : Machine}
    (h : escapesWithin fuel depth t s = true) (hvisits : Visits depth t s m s₁) :
    ∃ inner, isEscaped inner (m, s₁) = true ∧ ∀ less, depth = less + 1 →
      inner = escapesWithin fuel less := by
  obtain ⟨a, hstart, hleads⟩ := hvisits
  cases depth with
  | zero =>
    rw [escapesWithin, hstart, Option.all_some] at h
    exact ⟨_, follows_leads h hleads, fun less hless => by cases hless⟩
  | succ depth =>
    rw [escapesWithin, hstart, Option.all_some] at h
    exact ⟨_, follows_leads h hleads, fun less hless => by cases hless; rfl⟩

/-- An evaluation that is followed to its end can be seen to call no raw function. -/
theorem isRaw_of_escapesWithin {fuel depth : Nat} {t : Template}
    (h : escapesWithin fuel depth t s = true) {f : Builtin} (hcalls : Calls depth t s f) :
    f.isRaw = false := by
  obtain ⟨inner, u, s', m, s'', hevaluates, hvisits, hf⟩ := hcalls
  induction hevaluates with
  | itself depth t s =>
    obtain ⟨_, hstate, -⟩ := isEscaped_visits h hvisits
    simpa [isEscaped, hf] using (Bool.and_eq_true_iff.1 hstate).1
  | included hreached hasks hpage _ ih =>
    obtain ⟨_, hstate, hinner⟩ := isEscaped_visits h hreached
    have hpages := (Bool.and_eq_true_iff.1 hstate).2
    rw [hasks] at hpages
    simp only [hpage, hinner _ rfl] at hpages
    exact ih hpages hvisits

/-- A scene with a page that writes a text with markup. -/
def printing : Scene Unit where
  env := { (default : Environment Unit) with
    output := "before", escape := Config.EscapeMode.apply .html, rootdir := some (.ofString "/w") }
  world :=
    { files :=
        { entries := [([['w']], .directory),
            ([['w'], ['p']], .file (Utf8.encode "<i>[print('>')]".toList) 0)]
          cwd := [] }
      now := 0
      state := () }

/-- A template that writes a text with markup and includes that page. -/
def greeting : Template where
  identity := 0
  compiled :=
    { name := "t"
      program := [.emit "<b>", .escaped "'<'", .statement "include('p')"]
      paths := [] }
  evaluator := .script

/-- No raw function is called, and what has markup in the output is literal. -/
theorem evaluation_escapes_greeting :
    (∀ f, Calls maxIncludes greeting printing f → f.isRaw = false) ∧
      ∃ pieces : List String,
        (printing.evaluate greeting).2.env.output = "before" ++ String.join pieces ∧
          ∀ p ∈ pieces, ∀ c ∈ p.toList, c ∈ Html.markup →
            ∃ u, Executes maxIncludes greeting printing u ∧ .emit p ∈ u.program := by
  have hfollowed : escapesWithin 200 maxIncludes greeting printing = true := by decide +kernel
  have hraw (f : Builtin) (hf : Calls maxIncludes greeting printing f) : f.isRaw = false :=
    isRaw_of_escapesWithin hfollowed hf
  obtain ⟨pieces, houtput, -, hmarkup⟩ := evaluation_escapes greeting printing hraw _ (.inl rfl)
  exact ⟨hraw, pieces, houtput, hmarkup rfl⟩

/-- The pieces are literal, escaped, literal and escaped. -/
example : (printing.evaluate greeting).2.env.output =
    "before" ++ String.join ["<b>", "&lt;", "<i>", "&gt;"] := by
  decide +kernel

end Scene

end BracketTemplate
