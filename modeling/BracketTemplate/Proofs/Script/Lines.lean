import Mathlib
import BracketTemplate.Script.Lexer
import BracketTemplate.Proofs.Inclusion.Confined

/-!
# The lines of a script

A lexer counts the lines that it passes and never goes back: what it reads ends on the line it
starts on or on a later one (`Lexer.onward_next`).  So nothing is read from the line on that a
script may not come to (`Lexer.exists_read_error`).
-/

namespace BracketTemplate.Script.Lexer

variable {α β : Type} {line : Nat} {reached : α → Nat}

/-! ## Going on from a line -/

/-- What is read, if anything is, reaches a certain line or a later one. -/
def Onward (line : Nat) (reached : α → Nat) (x : Except SyntaxFault α) : Prop :=
  ∀ a, x = .ok a → line ≤ reached a

lemma Onward.ok {a : α} (h : line ≤ reached a) : Onward line reached (.ok a) := by
  rintro _ ⟨⟩
  exact h

lemma Onward.failed (input : Input) (wording : String) (shown : Option Bytes) :
    Onward line reached (fail input wording shown) := nofun

lemma Onward.ite {p : Prop} [Decidable p] {x y : Except SyntaxFault α} (hx : Onward line reached x)
    (hy : Onward line reached y) : Onward line reached (if p then x else y) := by
  split
  · exact hx
  · exact hy

lemma Onward.mono {line' : Nat} {x : Except SyntaxFault α} (h : Onward line' reached x)
    (hline : line ≤ line') : Onward line reached x :=
  fun a ha => hline.trans (h a ha)

lemma Onward.bind {x : Except SyntaxFault α} {next : α → Except SyntaxFault β} {reached' : β → Nat}
    (hx : Onward line reached x) (hnext : ∀ a, Onward (reached a) reached' (next a)) :
    Onward line reached' (x >>= next) := by
  intro b hb
  obtain ⟨a, ha, hb⟩ := Source.bind_eq_ok.1 hb
  exact (hx a ha).trans (hnext a b hb)

/-! ## Parts of tokens -/

lemma newline_line (input : Input) : input.newline.line = input.line + 1 := by
  unfold Input.newline
  split
  · split <;> rfl
  · rfl

lemma line_le_newline (input : Input) : input.line ≤ input.newline.line :=
  (newline_line input).symm ▸ Nat.le_succ input.line

lemma onward_longBody (level opened : Nat) (what : String) (fuel : Nat) (done : Bytes)
    (input : Input) :
    Onward input.line (·.2.line) (longBody level opened what fuel done input) := by
  induction fuel generalizing done input with
  | zero => exact .failed _ _ _
  | succ fuel ih =>
    rw [longBody]
    split
    · exact .failed _ _ _
    · exact .ite (.ok le_rfl) <| .ite ((ih _ _).mono (line_le_newline input)) (ih _ input.skip)

lemma onward_long (level : Nat) (what : String) (input : Input) :
    Onward input.line (·.2.line) (long level what input) := by
  unfold long
  refine (onward_longBody _ _ _ _ _ _).mono ?_
  dsimp only
  split
  · split
    · exact line_le_newline { input with rest := input.rest.drop (level + 2) }
    · exact le_rfl
  · exact le_rfl

lemma onward_unicodeDigits (fuel n : Nat) (shown : Bytes) (input : Input) :
    Onward input.line (·.2.2.line) (unicodeDigits fuel n shown input) := by
  induction fuel generalizing n shown input with
  | zero => exact .ok le_rfl
  | succ fuel ih =>
    rw [unicodeDigits]
    split
    · exact .ok le_rfl
    · split
      · exact .ok le_rfl
      · exact .ite (.failed _ _ _) (ih _ _ input.skip)

lemma onward_escape (shown : Bytes) (input : Input) :
    Onward input.line (·.2.line) (escape shown input) := by
  unfold escape
  split
  · exact .ok le_rfl
  dsimp only
  refine .ite (.ok le_rfl) <| .ite (.ok le_rfl) <| .ite (.ok le_rfl) <| .ite (.ok le_rfl) <|
    .ite (.ok le_rfl) <| .ite (.ok le_rfl) <| .ite (.ok le_rfl) <| .ite (.ok le_rfl) <|
    .ite (.ok (line_le_newline input)) <| .ite ?_ <| .ite ?_ <|
    .ite (.ite (.failed _ _ _) (.ok le_rfl)) (.failed _ _ _)
  · split
    · exact .failed _ _ _
    split
    · exact .failed _ _ _
    split
    · exact .failed _ _ _
    · exact .ok le_rfl
  · split
    · split
      · exact .failed _ _ _
      refine (onward_unicodeDigits _ _ _ input.skip.skip.skip).bind fun read => ?_
      obtain ⟨n, shown, after⟩ := read
      dsimp only
      split
      · exact .ok le_rfl
      · exact .failed _ _ _
    · exact .failed _ _ _
    · exact .failed _ _ _

lemma line_le_skipSpace (fuel : Nat) (input : Input) :
    input.line ≤ (skipSpace fuel input).line := by
  induction fuel generalizing input with
  | zero => exact le_rfl
  | succ fuel ih =>
    rw [skipSpace]
    split
    · exact le_rfl
    · split_ifs
      · exact (line_le_newline input).trans (ih _)
      · exact ih input.skip
      · exact le_rfl

lemma onward_quoted (quote : UInt8) (fuel : Nat) (done : Bytes) (input : Input) :
    Onward input.line (·.2.line) (quoted quote fuel done input) := by
  induction fuel generalizing done input with
  | zero => exact .failed _ _ _
  | succ fuel ih =>
    rw [quoted]
    split
    · exact .failed _ _ _
    · refine .ite (.ok le_rfl) <| .ite (.failed _ _ _) <| .ite (.ite ?_ ?_) (ih _ input.skip)
      · exact (ih _ _).mono (line_le_skipSpace _ input.skip.skip)
      · exact (onward_escape _ input.skip).bind fun read => ih _ read.2

lemma onward_numeral (input : Input) : Onward input.line (·.2.line) (numeral input) := by
  unfold numeral
  dsimp only
  split
  · exact .ok le_rfl
  · exact .failed _ _ _

lemma onward_comment (input : Input) : Onward input.line (·.line) (comment input) := by
  unfold comment
  split
  · exact (onward_long _ _ input).bind fun read => .ok le_rfl
  · exact .ok le_rfl

/-! ## Tokens -/

lemma onward_token (b : UInt8) (input : Input) : Onward input.line (·.2.line) (token b input) := by
  unfold token
  dsimp only
  refine .ite ?_ <| .ite (onward_numeral input) <| .ite ?_ <| .ite ?_ <|
    .ite (onward_numeral input) ?_
  · split <;> exact .ok le_rfl
  · exact (onward_quoted b _ _ input.skip).bind fun read => .ok le_rfl
  · split
    · exact (onward_long _ _ input).bind fun read => .ok le_rfl
    · exact .failed _ _ _
  · split <;> exact .ok le_rfl

/-- **Reading goes on.**  A token ends on the line from which it is looked for, or on a later
one. -/
theorem onward_next (fuel : Nat) (input : Input) :
    Onward input.line (·.2.line) (next fuel input) := by
  induction fuel generalizing input with
  | zero => exact .ok le_rfl
  | succ fuel ih =>
    rw [next]
    split
    · exact .ok le_rfl
    · refine .ite ((ih _).mono (line_le_newline input)) <| .ite (ih input.skip) <| .ite ?_
        (onward_token _ input)
      exact (onward_comment input.skip.skip).bind fun after => ih after

/-! ## Too many lines -/

lemma read_eq_ok {input out : Input} {l : Lexeme} :
    read input = .ok (l, out) ↔
      next (input.rest.length + 1) input = .ok (l, out) ∧ out.line < maxLines := by
  unfold read
  constructor
  · intro h
    split at h
    · cases h
    next hnext =>
      split at h
      next hline =>
        cases h
        exact ⟨hnext, hline⟩
      · cases h
  · rintro ⟨hnext, hline⟩
    simp only [hnext, if_pos hline]

/-- What is read is not too far down. -/
lemma read_line {input out : Input} {l : Lexeme} (h : read input = .ok (l, out)) :
    input.line ≤ out.line ∧ out.line < maxLines := by
  obtain ⟨hnext, hline⟩ := read_eq_ok.1 h
  exact ⟨onward_next _ input _ hnext, hline⟩

/-- **From the line on that is too many nothing is read.** -/
theorem exists_read_error (input : Input) (h : maxLines ≤ input.line) :
    ∃ f, read input = .error f := by
  rcases hread : read input with f | ⟨l, out⟩
  · exact ⟨f, rfl⟩
  · have hline := read_line hread
    omega

end BracketTemplate.Script.Lexer
