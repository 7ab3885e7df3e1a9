import Mathlib
import BracketTemplate.Proofs.Evaluation.Straight
import BracketTemplate.Proofs.Script.Globals
import BracketTemplate.Proofs.Script.Statements
import BracketTemplate.Proofs.Text.Utf8

/-!
# Printing literals

What a script prints is written as a text, and the global function `tostring` is asked for the texts
of booleans and numbers.  `nil` and a text itself need no function (`Literal.relied`).

With `tostring` as it is from the start, the text of a literal is the same everywhere
(`exists_stringify`), and a call that prints a literal has it written and comes back within five
steps (`Scene.leadsWithin_print`).
-/

namespace BracketTemplate

variable {σ : Type}

namespace Script

namespace Literal

/-- The value of a literal. -/
def val : Literal → Val
  | nil => .nil
  | bool b => .bool b
  | number n => .ofNumber n
  | string text => .str text

/-- What a literal is printed as; nothing for `nil`. -/
def bytes : Literal → Bytes
  | nil => []
  | bool b => utf8 (if b then "true" else "false")
  | number (.int i) => Val.intText i
  | number (.float x) => Val.floatText x
  | string text => text

/-- The text that a literal is printed as. -/
def text (l : Literal) : String := l.bytes.text

/-- The global functions that are asked for this text. -/
def relied : Literal → List String
  | bool _ | number _ => ["tostring"]
  | nil | string _ => []

/-- The text that some code prints when it is a literal, and the global functions that are asked for
it. -/
def printed (code : String) : String := (ofCode? code).elim "" text

def reliedBy (code : String) : List String := (ofCode? code).elim [] relied

lemma mem_relied {l : Literal} (h : l.relied ≠ []) : "tostring" ∈ l.relied := by
  cases l <;> first | exact List.mem_singleton_self _ | exact absurd rfl h

end Literal

/-! ## The text of a literal -/

lemma values_literal (l : Literal) (act : Activation) (h : Heap) :
    l.expr.values act h = .done [l.val] h := by
  cases l with
  | bool b => cases b <;> (rw [Literal.expr]; rfl)
  | nil | number | string =>
    rw [Literal.expr, Expr.values]
    rfl

lemma GlobalCall.values_expr (c : GlobalCall) (act : Activation) (h : Heap) :
    c.expr.values act h = .done [c.argument.val] h := by
  unfold expr
  split
  · rw [Expr.values]
    have hfirst : first (c.argument.expr.values act) h = .done c.argument.val h :=
      bind_of_done (values_literal c.argument act h)
    exact bind_of_done hfirst
  · exact values_literal c.argument act h

/-- The texts of booleans and numbers are well-formed. -/
lemma Literal.exists_encode {l : Literal} (hl : l.relied ≠ []) :
    ∃ chars, l.bytes = Utf8.encode chars := by
  cases l with
  | nil | string => exact absurd rfl hl
  | bool b => exact ⟨_, rfl⟩
  | number n =>
    cases n with
    | int i =>
      unfold bytes Val.intText
      dsimp only
      split
      · exact ⟨'-' :: _, rfl⟩
      · exact ⟨_, rfl⟩
    | float x =>
      unfold bytes Val.floatText
      dsimp only
      split <;> exact ⟨_, rfl⟩

/-- A literal that needs no function for its text has it at once. -/
lemma stringify_of_relied {l : Literal} (hl : l.relied = []) (h : Heap) :
    stringify l.val h = .done l.text h := by
  cases l <;> first | rfl | cases hl

/-- The text of any other literal is what `tostring` makes of it. -/
lemma exists_stringify {l : Literal} (hl : l.relied ≠ []) {h : Heap}
    (hglobal : h.globalVar "tostring" = .builtin (.base .tostring)) :
    ∃ next, stringify l.val h = .guard (.builtin (.base .tostring)) [l.val] none h next ∧
      ∀ heap, next (.ok [.str l.bytes]) heap = .done l.text heap := by
  have hfield : globalField "tostring" h = .done (.builtin (.base .tostring)) h :=
    Operation.index_of_not_nil hglobal rfl
  have hstringify : stringify l.val h =
      (globalField "tostring" >>= fun fn => callFromHost fn [l.val] >>= hostResult) h := by
    cases l with
    | nil | string => exact absurd rfl hl
    | bool b => rfl
    | number n => cases n <;> rfl
  obtain ⟨chars, hchars⟩ := Literal.exists_encode hl
  have hresult (heap : Heap) : hostResult [.str l.bytes] heap = .done l.text heap := by
    have htext : (Val.str l.bytes).hostText = .ok l.text := by
      rw [Val.hostText, Val.toText?, Literal.text, Bytes.text, hchars, Utf8.decodeLossy_encode]
      simp only [Utf8.decode?_encode]
    unfold hostResult
    rw [List.headD_cons, htext]
    rfl
  rw [hstringify, bind_of_done hfield]
  exact ⟨_, rfl, hresult⟩

lemma run_tostring {l : Literal} (hl : l.relied ≠ []) (site : Site) (h : Heap) :
    (Builtin.base .tostring).run site [l.val] h = .done [.str l.bytes] h := by
  cases l with
  | nil | string => exact absurd rfl hl
  | bool b => rfl
  | number n => cases n <;> rfl

end Script

namespace Scene

open Script (Machine Request)

variable {includePage : String → Scene σ → Scene σ} {program : Program}

/-- A builtin function that is done at once is called under guard in two steps. -/
lemma leadsWithin_guard {m : Machine} (hroom : m.HasRoom) {f : Script.Builtin}
    {args values : List Script.Val} {h : Script.Heap} (hrun : f.run {} args h = .done values h)
    (next : Script.Next (Except Script.Val (List Script.Val))) (s : Scene σ) :
    LeadsWithin includePage program 2 (m.goOn (.guard (.builtin f) args none h next), s)
      (m.goOn (next (.ok values) h), s) := by
  let frame : Script.Frame := .guard none next
  have hcall : (m.goOn (.guard (.builtin f) args none h next)).step =
      .next ((m.push frame).goOn (.done (.return values) h)) := by
    have hbegin : Machine.begin (.builtin f) args {} h = .done (.return values) h := by
      show (f.run {} args h).bind _ = _
      rw [hrun]
      rfl
    rw [← hbegin]
    exact congrArg Machine.Step.next (hroom.call_pushes _ _ _ _ _)
  have hpop : Machine.Step.next (((m.push frame).pop frame m.frames).goOn (next (.ok values) h)) =
      .next (m.goOn (next (.ok values) h)) := by rw [Machine.pop_push]
  exact .step (advance_next hcall) (.step (advance_next hpop) (.refl _ _))

/-- A call of the host function that prints a literal has its text written and goes on. -/
lemma leadsWithin_print {m : Machine} (hroom : m.HasRoom) (hroom' : ∀ frame, (m.push frame).HasRoom)
    {l : Script.Literal} {h : Script.Heap}
    (hglobal : ∀ name ∈ l.relied, h.globalVar name = .builtin (.base .tostring)) (raw : Bool)
    (s : Scene σ) (site : Script.Site) (after : Script.Heap → Script.Outcome Script.Signal) :
    LeadsWithin includePage program 5
      (m.goOn (.call (.builtin (.host (.printValue raw))) [l.val] site h fun _ h => after h), s)
      (m.goOn (after h), s.onEnv (·.write raw l.text)) := by
  let ret (values : List Script.Val) (heap : Script.Heap) : Script.Outcome Script.Signal :=
    .done (.return values) heap
  let write (text : String) : Script.Act (List Script.Val) := do
    Script.Act.ask (.write raw text)
    return []
  have hcall : (m.goOn (.call (.builtin (.host (.printValue raw))) [l.val] site h
      fun _ h => after h)).step = .next ((m.push (.call site fun _ h => after h)).goOn
        (((Script.stringify l.val h).bind write).bind ret)) :=
    hroom.step_call (.host (.printValue raw)) [l.val] site h after
  have hwrite : LeadsWithin includePage program 2
      ((m.push (.call site fun _ h => after h)).goOn ((write l.text h).bind ret), s)
      (m.goOn (after h), s.onEnv (·.write raw l.text)) :=
    leadsWithin_ask m rfl rfl site after
  by_cases hl : l.relied = []
  · rw [Script.stringify_of_relied hl h] at hcall
    exact (LeadsWithin.step (advance_next hcall) hwrite).mono (by decide)
  · obtain ⟨next, hstringify, hnext⟩ :=
      Script.exists_stringify hl (hglobal "tostring" (Script.Literal.mem_relied hl))
    rw [hstringify] at hcall
    have hguard : LeadsWithin includePage program 2 _ _ :=
      leadsWithin_guard (hroom' (.call site fun _ h => after h)) (Script.run_tostring hl {} h)
        (fun result heap => ((next result heap).bind write).bind ret) s
    rw [hnext] at hguard
    exact .step (advance_next hcall) (hguard.trans hwrite)

end Scene

end BracketTemplate
