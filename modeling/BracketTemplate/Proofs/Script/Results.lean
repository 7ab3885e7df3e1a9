import Mathlib
import BracketTemplate.Script.Act

/-!
# Results of acts

What an act gives depends on the answers to what it wants on its way.  `Outcome.Gives` says that
there are answers with which an outcome gives a value and leaves a heap.  Whatever is answered, even
a heap that has become another one in the meantime, one act after another gives what the second
makes of a result of the first (`Outcome.gives_bind`).

Acts done in turn give a result each, and every one of them finds the heap that the one before it
has left (`InTurn`).
-/

namespace BracketTemplate.Script

variable {α β : Type}

namespace Outcome

/-- With some answers on its way, an outcome gives a value and leaves a heap. -/
def Gives (a : α) (left : Heap) : Outcome α → Prop
  | .done b heap => a = b ∧ left = heap
  | .fail _ _ => False
  | .call _ _ _ _ next => ∃ r h, (next r h).Gives a left
  | .enter _ _ next => ∃ r h, (next r h).Gives a left
  | .guard _ _ _ _ next => ∃ r h, (next r h).Gives a left
  | .control _ _ next => ∃ r h, (next r h).Gives a left
  | .ask _ _ next => ∃ r h, (next r h).Gives a left

/-- **One after another**: what goes on starts with a result of what came before, and with the heap
that it left. -/
theorem gives_bind {o : Outcome α} {f : α → Heap → Outcome β} {b : β} {left : Heap} :
    (o.bind f).Gives b left ↔ ∃ a h, o.Gives a h ∧ (f a h).Gives b left := by
  induction o with
  | done a h =>
    constructor
    · intro hf
      exact ⟨a, h, ⟨rfl, rfl⟩, hf⟩
    · rintro ⟨_, _, ⟨rfl, rfl⟩, hf⟩
      exact hf
  | fail _ _ =>
    constructor
    · intro hf
      exact hf.elim
    · rintro ⟨_, _, hfail, -⟩
      exact hfail.elim
  | call _ _ _ _ next ih | enter _ _ next ih | guard _ _ _ _ next ih | control _ _ next ih
  | ask _ _ next ih =>
    constructor
    · rintro ⟨r, h, hf⟩
      obtain ⟨a, h', ha, hf⟩ := (ih r h).1 hf
      exact ⟨a, h', ⟨r, h, ha⟩, hf⟩
    · rintro ⟨a, h', ⟨r, h, ha⟩, hf⟩
      exact ⟨r, h, (ih r h).2 ⟨a, h', ha, hf⟩⟩

end Outcome

variable {m : Act α} {f : α → Act β} {a a' : α} {b : β} {h left : Heap}

lemma gives_bind : ((m >>= f) h).Gives b left ↔
    ∃ a h', (m h).Gives a h' ∧ (f a h').Gives b left :=
  Outcome.gives_bind

@[simp] lemma gives_pure : ((pure a : Act α) h).Gives a' left ↔ a' = a ∧ left = h := Iff.rfl

lemma gives_read {g : Heap → α} : (Act.read g h).Gives a left ↔ a = g h ∧ left = h := Iff.rfl

lemma not_gives_failHost {text : String} : ¬((Act.failHost text : Act α) h).Gives a left := id

/-- An act that is done is followed by the next one. -/
lemma bind_of_done (hm : m h = .done a left) : (m >>= f) h = f a left :=
  congrArg (Outcome.bind · f) hm

/-- An act that fails is followed by none. -/
lemma bind_of_failHost {text : String} (hm : m h = Act.failHost text h) :
    (m >>= f) h = Act.failHost text h :=
  congrArg (Outcome.bind · f) hm

/-! ## Acts in turn -/

/-- Acts give one result each, every one of them on the heap that the one before has left. -/
inductive InTurn : List (Act α) → Heap → List α → Heap → Prop
  | nil (h : Heap) : InTurn [] h [] h
  | cons {m : Act α} {ms : List (Act α)} {a : α} {as : List α} {h between left : Heap}
      (head : (m h).Gives a between) (tail : InTurn ms between as left) :
      InTurn (m :: ms) h (a :: as) left

lemma InTurn.length_eq {ms : List (Act α)} {as : List α} (hturn : InTurn ms h as left) :
    as.length = ms.length := by
  induction hturn with
  | nil => rfl
  | cons _ _ ih => rw [List.length_cons, List.length_cons, ih]

/-- The first of some acts is followed by the others. -/
lemma inTurn_cons {ms : List (Act α)} {as : List α} : InTurn (m :: ms) h as left ↔
    ∃ a h' rest, (m h).Gives a h' ∧ InTurn ms h' rest left ∧ as = a :: rest := by
  constructor
  · intro hturn
    cases hturn with
    | cons head tail => exact ⟨_, _, _, head, tail, rfl⟩
  · rintro ⟨a, h', rest, head, tail, rfl⟩
    exact .cons head tail

/-- Acts behind others go on with what those have left. -/
lemma inTurn_append {front back : List (Act α)} {as : List α} : InTurn (front ++ back) h as left ↔
    ∃ done rest between, InTurn front h done between ∧ InTurn back between rest left ∧
      as = done ++ rest := by
  induction front generalizing h as with
  | nil =>
    constructor
    · intro hturn
      exact ⟨[], as, h, .nil h, hturn, rfl⟩
    · rintro ⟨done, rest, between, hfront, hback, rfl⟩
      cases hfront
      exact hback
  | cons m front ih =>
    simp only [List.cons_append, inTurn_cons, ih]
    constructor
    · rintro ⟨a, h₁, _, head, ⟨done, rest, between, hfront, hback, rfl⟩, rfl⟩
      exact ⟨a :: done, rest, between, ⟨a, h₁, done, head, hfront, rfl⟩, hback, rfl⟩
    · rintro ⟨_, rest, between, ⟨a, h₁, done, head, hfront, rfl⟩, hback, rfl⟩
      exact ⟨a, h₁, done ++ rest, head, ⟨done, rest, between, hfront, hback, rfl⟩, rfl⟩

end BracketTemplate.Script
