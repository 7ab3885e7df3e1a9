import Mathlib
import BracketTemplate.Proofs.Evaluation.Requests

/-!
# Output only grows

Whatever a script asks for writes at the end of the output, if it writes at all, and nothing that it
is told depends on what has been written before.  So an evaluation behind some earlier output is the
same evaluation, with that output in front (`Scene.evaluateWith_behind`): every answer is, hence
every run of answers, and an included page is evaluated into an output of its own.

That output only grows follows from this, and so does what relies on it: the text that a template
renders to is found behind the earlier output, and dropping what a failed evaluation has written
gives back the output that was there before (`Scene.evaluation_appends`).
-/

namespace BracketTemplate

variable {σ : Type}

/-- The environment with an earlier output in front of its own. -/
def Environment.behind (earlier : String) (env : Environment σ) : Environment σ :=
  { env with output := earlier ++ env.output }

namespace Environment

variable (earlier name : String) (env : Environment σ)

lemma write_behind (raw : Bool) (text : String) :
    (env.behind earlier).write raw text = (env.write raw text).behind earlier := by
  cases raw <;> simp [write, writeEscaped, writeRaw, behind, String.append_assoc]

lemma set_behind (value : Value) :
    (env.behind earlier).set name value = (env.set name value).map (behind earlier) := by
  unfold set
  dsimp only
  cases checkBindingName (bindingName name) <;> rfl

lemma call_behind (args : List Value) (state : σ) :
    (env.behind earlier).call name args state =
      ((env.call name args state).1, (env.call name args state).2.1.behind earlier,
        (env.call name args state).2.2) := by
  unfold call
  rw [show (env.behind earlier).functions = env.functions from rfl,
    show (env.behind earlier).memo = env.memo from rfl]
  cases env.functions.lookup name with
  | none => rfl
  | some f =>
    cases hmemoize : f.memoize with
    | false => simp only [hmemoize, Bool.not_false, if_true]
    | true =>
      simp only [hmemoize, Bool.not_true, Bool.false_eq_true, if_false]
      cases env.memo.lookup (name, writtenArguments args) with
      | some value => rfl
      | none => rcases f.body args state with ⟨_ | value, state⟩ <;> rfl

end Environment

namespace Scene

variable {includePage : String → Scene σ → Scene σ} {program : Program} {earlier : String}

/-- The scene with an earlier output in front of that of its environment. -/
def behind (earlier : String) (s : Scene σ) : Scene σ := s.onEnv (·.behind earlier)

/-- The scene without any output. -/
def blank (s : Scene σ) : Scene σ := s.onEnv fun env => { env with output := "" }

@[simp] lemma behind_blank (s : Scene σ) : s.blank.behind s.env.output = s := by
  simp [behind, blank, onEnv, Environment.behind]

/-- Pages are included without regard to what has been written before. -/
def Oblivious (includePage : String → Scene σ → Scene σ) : Prop :=
  ∀ earlier name s, includePage name (behind earlier s) = (includePage name s).behind earlier

/-! ## Requests -/

lemma perform_behind (s : Scene σ) (kind : Script.InstructionKind) (index : Nat) :
    (s.behind earlier).perform program kind index =
      ((s.perform program kind index).1, (s.perform program kind index).2.behind earlier) := by
  unfold perform
  split
  · simp [behind, onEnv, Environment.behind, Environment.writeRaw, String.append_assoc]
  · rfl
  · rfl
  · rfl

lemma bind_behind (s : Scene σ) (name : String) (value : Value) :
    (s.behind earlier).bind name value =
      ((s.bind name value).1, (s.bind name value).2.behind earlier) := by
  unfold bind
  rw [show (s.behind earlier).env = s.env.behind earlier from rfl, Environment.set_behind]
  cases s.env.set name value <;> rfl

lemma invoke_behind (s : Scene σ) (name : String) (args : List Value) :
    (s.behind earlier).invoke name args =
      ((s.invoke name args).1, (s.invoke name args).2.behind earlier) := by
  unfold invoke
  rw [show (s.behind earlier).env = s.env.behind earlier from rfl, Environment.call_behind]
  rfl

lemma openFile_behind (s : Scene σ) (path : Path) (mode : Script.OpenMode) :
    (s.behind earlier).openFile path mode =
      ((s.openFile path mode).1, (s.openFile path mode).2.behind earlier) := by
  cases mode <;> rfl

/-- **No answer depends on the output**, and every answer leaves what has been written before. -/
theorem answer_behind (hinclude : Oblivious includePage) (s : Scene σ) (r : Script.Request) :
    (s.behind earlier).answer includePage program r =
      ((s.answer includePage program r).1, (s.answer includePage program r).2.behind earlier) := by
  cases r with
  | write raw text =>
    exact congrArg (fun env => ((), (⟨env, s.world⟩ : Scene σ)))
      (s.env.write_behind earlier raw text)
  | instruction kind index => exact s.perform_behind kind index
  | includePage name => exact congrArg (Prod.mk ()) (hinclude earlier name s)
  | bind name value => exact s.bind_behind name value
  | invoke name args => exact s.invoke_behind name args
  | openFile path mode => exact s.openFile_behind path mode
  | rootdir | workdir | binding | readFile | writeFile | console | now => rfl

/-! ## Runs -/

lemma goOn_behind (hinclude : Oblivious includePage) (at' : Script.Machine.Pause × Scene σ) :
    goOn includePage program (at'.map id (behind earlier)) =
      (goOn includePage program at').map id (behind earlier) := by
  obtain ⟨pause, s⟩ := at'
  cases pause with
  | ask request next =>
    exact congrArg (fun answered => ((next answered.1).run maxSteps, answered.2))
      (answer_behind hinclude s request)
  | done | exhausted => rfl

lemma drive_behind (hinclude : Oblivious includePage) (fuel : Nat) (pause : Script.Machine.Pause)
    (s : Scene σ) :
    drive includePage program fuel pause (s.behind earlier) =
      (drive includePage program fuel pause s).map id (behind earlier) := by
  induction fuel generalizing pause s with
  | zero => cases pause <;> rfl
  | succ fuel ih =>
    calc drive includePage program (fuel + 1) pause (s.behind earlier)
        = drive includePage program fuel (goOn includePage program (pause, s.behind earlier)).1
            (goOn includePage program (pause, s.behind earlier)).2 :=
          drive_goOn fuel (pause, s.behind earlier)
      _ = drive includePage program fuel (goOn includePage program (pause, s)).1
            ((goOn includePage program (pause, s)).2.behind earlier) :=
          congrArg (fun at' => drive includePage program fuel at'.1 at'.2)
            (goOn_behind hinclude (pause, s))
      _ = (drive includePage program (fuel + 1) pause s).map id (behind earlier) := by
          rw [ih]
          exact congrArg _ (drive_goOn fuel (pause, s)).symm

lemma runProgram_behind (hinclude : Oblivious includePage) (name : String) (s : Scene σ) :
    runProgram includePage name program (s.behind earlier) =
      (runProgram includePage name program s).map id (behind earlier) := by
  unfold runProgram
  split
  · rfl
  · next chunk _ =>
    rw [drive_behind hinclude, show (s.behind earlier).machine program chunk =
      s.machine program chunk from rfl]
    rcases drive includePage program maxSteps ((s.machine program chunk).run maxSteps) s with
      ⟨_ | wording, after⟩ <;> rfl

/-- **An evaluation behind some earlier output** is the same evaluation, with that output in
front. -/
theorem evaluateWith_behind (hinclude : Oblivious includePage) (t : Template) (s : Scene σ) :
    evaluateWith includePage t (s.behind earlier) =
      (evaluateWith includePage t s).map id (behind earlier) := by
  unfold evaluateWith
  split
  · rfl
  · rw [show (s.behind earlier).onEnv (·.enter t) = (s.onEnv (·.enter t)).behind earlier from rfl,
      runProgram_behind hinclude]
    rfl

/-! ## Includes -/

/-- **Pages are included without regard to the output**, at every depth. -/
theorem oblivious_includePageWithin (depth : Nat) :
    Oblivious (includePageWithin (σ := σ) depth) := by
  intro earlier name s
  cases depth with
  | zero =>
    simp [includePageWithin, behind, onEnv, Environment.behind, Environment.writeEscaped,
      Environment.writeRaw, String.append_assoc]
  | succ depth =>
    show includeWith _ name _ = (includeWith _ name s).behind earlier
    unfold includeWith
    -- what the page is, and the environment for it, is found without regard to the output
    rw [show (s.behind earlier).pageOutput (evaluateWith (includePageWithin depth)) name =
      s.pageOutput (evaluateWith (includePageWithin depth)) name from rfl]
    split <;> simp [behind, onEnv, Environment.behind, Environment.writeEscaped,
      Environment.writeRaw, String.append_assoc]

/-! ## Growing output -/

/-- The output has grown from one scene to another, at its end and nowhere else. -/
def Grows (before after : Scene σ) : Prop :=
  ∃ text, after.env.output = before.env.output ++ text

lemma Grows.refl (s : Scene σ) : s.Grows s := ⟨"", by simp⟩

lemma Grows.trans {s₁ s₂ s₃ : Scene σ} (h : s₁.Grows s₂) (k : s₂.Grows s₃) : s₁.Grows s₃ := by
  obtain ⟨text, h⟩ := h
  obtain ⟨text', k⟩ := k
  exact ⟨text ++ text', by rw [k, h, String.append_assoc]⟩

/-- Answers requests one after another. -/
def answerAll (includePage : String → Scene σ → Scene σ) (program : Program)
    (requests : List Script.Request) (s : Scene σ) : Scene σ :=
  requests.foldl (fun s r => (s.answer includePage program r).2) s

lemma grows_answer (hinclude : Oblivious includePage) (s : Scene σ) (r : Script.Request) :
    s.Grows (s.answer includePage program r).2 := by
  have h : s.answer includePage program r = _ :=
    s.behind_blank ▸ answer_behind hinclude s.blank r
  exact ⟨(s.blank.answer includePage program r).2.env.output, by rw [h]; rfl⟩

lemma grows_answerAll (hinclude : Oblivious includePage) (requests : List Script.Request)
    (s : Scene σ) : s.Grows (answerAll includePage program requests s) := by
  induction requests generalizing s with
  | nil => exact .refl s
  | cons r requests ih => exact (grows_answer hinclude s r).trans (ih _)

/-- What an evaluation writes behind some output, it writes without that, too. -/
lemma evaluate_behind (t : Template) (s : Scene σ) :
    s.evaluate t = (s.blank.evaluate t).map id (behind s.env.output) := by
  conv_lhs => rw [← s.behind_blank]
  exact evaluateWith_behind (oblivious_includePageWithin maxIncludes) t s.blank

lemma grows_evaluate (t : Template) (s : Scene σ) : s.Grows (s.evaluate t).2 :=
  ⟨(s.blank.evaluate t).2.env.output, by rw [evaluate_behind]; rfl⟩

/-- A text lies behind the bytes of the text in front of it, as many bytes as it has. -/
lemma extract_append (front mid back : String) :
    String.Pos.Raw.extract (front ++ mid ++ back) ⟨front.utf8ByteSize⟩
      ⟨front.utf8ByteSize + mid.utf8ByteSize⟩ = mid := by
  have hvalid := String.extract_of_valid front.toList mid.toList back.toList
  rwa [← String.toList_append, ← String.toList_append, String.ofList_toList, String.ofList_toList,
    String.utf8Len_toList, String.utf8Len_toList] at hvalid

/-- Where the output has grown, the text that has come is the output from the old end on. -/
lemma outputFrom_append {env : Environment σ} {earlier text : String}
    (h : env.output = earlier ++ text) : env.outputFrom earlier.utf8ByteSize = text := by
  have hextract := extract_append earlier text ""
  rw [String.append_empty, ← String.utf8ByteSize_append] at hextract
  rw [Environment.outputFrom, h]
  exact hextract

/-- Where the output has grown, cutting it at the old end gives the old output. -/
lemma truncateOutput_append {env : Environment σ} {earlier text : String}
    (h : env.output = earlier ++ text) :
    (env.truncateOutput earlier.utf8ByteSize).output = earlier := by
  have hextract := extract_append "" earlier text
  rw [String.empty_append, String.utf8ByteSize_empty, zero_add] at hextract
  rw [Environment.truncateOutput, h]
  exact hextract

lemma render_eq (t : Template) {s : Scene σ} {text : String}
    (h : (s.evaluate t).2.env.output = s.env.output ++ text) :
    s.render t = ((s.evaluate t).1.map fun _ => text, (s.evaluate t).2) := by
  unfold render
  rcases heval : s.evaluate t with ⟨e | _, after⟩
  · rfl
  · rw [heval] at h
    simp only [outputFrom_append h]
    rfl

/-- Evaluating in isolation adds to the output, and nothing unless it succeeds. -/
lemma evaluateIsolated_output (t : Template) (s : Scene σ) :
    s.Grows (s.evaluateIsolated t).2 ∧
      ((s.evaluateIsolated t).1 ≠ .ok true →
        (s.evaluateIsolated t).2.env.output = s.env.output) := by
  obtain ⟨text, htext⟩ := s.grows_evaluate t
  unfold evaluateIsolated
  rcases heval : s.evaluate t with ⟨e | _, after⟩ <;> rw [heval] at htext
  · have hcut := truncateOutput_append htext
    exact ⟨⟨"", by simpa [onEnv] using hcut⟩, fun _ => hcut⟩
  · exact ⟨⟨text, htext⟩, fun h => absurd rfl h⟩

lemma evaluatePage_output (hold : Bool) (name : String) (s : Scene σ) :
    s.Grows (s.evaluatePage hold name).2 ∧
      ((s.evaluatePage hold name).1 ≠ .ok true →
        (s.evaluatePage hold name).2.env.output = s.env.output) := by
  unfold evaluatePage
  split
  · exact ⟨.refl s, fun _ => rfl⟩
  split
  · exact ⟨.refl s, fun _ => rfl⟩
  · exact ⟨.refl s, fun _ => rfl⟩
  · next t world _ =>
    exact evaluateIsolated_output t { s with world := { world with cacheHeld := hold } }

/-- **Output only grows, and a failed evaluation of a page leaves it as it was.**  Whatever requests
are answered, in whatever order, and however far the script of a program has come, be it that it
ends or that it fails: the output is what it was, and something behind it.  What rendering a
template returns is the text that its evaluation has put there.  A page of the cache that cannot be
had, or whose evaluation fails, has put nothing there, whether the cache is held meanwhile or
not. -/
theorem evaluation_appends (s : Scene σ) :
    (∀ depth program requests,
      s.Grows (answerAll (includePageWithin depth) program requests s)) ∧
    (∀ depth program pause n,
      s.Grows ((goOn (includePageWithin depth) program)^[n] (pause, s)).2) ∧
    (∀ t, ∃ text, (s.evaluate t).2.env.output = s.env.output ++ text ∧
      s.render t = ((s.evaluate t).1.map fun _ => text, (s.evaluate t).2)) ∧
    ∀ hold name, s.Grows (s.evaluatePage hold name).2 ∧
      ((s.evaluatePage hold name).1 ≠ .ok true →
        (s.evaluatePage hold name).2.env.output = s.env.output) := by
  refine ⟨fun depth program requests => ?_, fun depth program pause n => ?_, fun t => ?_,
    fun hold name => s.evaluatePage_output hold name⟩
  · exact grows_answerAll (oblivious_includePageWithin depth) requests s
  · exact goOn_induction (motive := s.Grows)
      (fun s' r h => h.trans (grows_answer (oblivious_includePageWithin depth) s' r)) (pause, s)
      (.refl s) n
  · obtain ⟨text, htext⟩ := s.grows_evaluate t
    exact ⟨text, htext, render_eq t htext⟩

/-- A scene with a page that writes and then fails, and with some output. -/
def failing : Scene Unit where
  env := { (default : Environment Unit) with output := "before" }
  world :=
    { files :=
        { entries := [([['w']], .directory),
            ([['w'], ['p']], .file (Utf8.encode "x[print('y')][error('z')]".toList) 0)]
          cwd := [] }
      now := 0
      cache := some ⟨.ofString "/w", .always, [], .script⟩
      state := () }

/-- The page fails with an error, and what it has written is gone. -/
theorem evaluation_appends_failing :
    (failing.evaluatePage true "p").1 ≠ .ok true ∧
      (failing.evaluatePage true "p").2.env.output = "before" := by
  have hfails : (failing.evaluatePage true "p").1 ≠ .ok true := by decide +kernel
  exact ⟨hfails, ((evaluation_appends failing).2.2.2 true "p").2 hfails⟩

end Scene

end BracketTemplate
