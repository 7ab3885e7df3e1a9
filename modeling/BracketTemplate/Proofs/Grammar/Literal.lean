import Mathlib
import BracketTemplate.Proofs.Grammar.Segment

/-!
# Texts that open nothing

A bracket opens something unless a backslash stands right before it.  Where every opening bracket
has one (`Guarded`), the whole source is one text (`segments_guarded`): the source itself, but for
the backslashes before its brackets (`bare`).  The program for it writes that text, if there is any,
and does nothing else.
-/

namespace BracketTemplate.Grammar

/-- A text without the backslashes right before its brackets. -/
def bare : List Char → List Char
  | '\\' :: '[' :: rest => '[' :: bare rest
  | '\\' :: ']' :: rest => ']' :: bare rest
  | c :: rest => c :: bare rest
  | [] => []

/-- Right before every opening bracket stands a backslash. -/
def Guarded (text : List Char) : Prop :=
  ∀ i < text.length, text[i]? = some '[' → 0 < i ∧ text[i - 1]? = some '\\'

instance (text : List Char) : Decidable (Guarded text) :=
  inferInstanceAs (Decidable (∀ i < text.length, _))

variable {c d : Char} {text rest : List Char}

lemma Guarded.before (h : Guarded text) {i : Nat} (hopen : text[i]? = some '[') :
    0 < i ∧ text[i - 1]? = some '\\' :=
  h i (List.getElem?_eq_some_iff.1 hopen).1 hopen

lemma Guarded.head?_ne (h : Guarded text) : text.head? ≠ some '[' := by
  rw [List.head?_eq_getElem?]
  exact fun hopen => absurd (h.before hopen).1 (lt_irrefl 0)

/-- What stands behind some place is guarded, unless it starts with an opening bracket. -/
lemma Guarded.drop (h : Guarded text) {n : Nat} (hhead : text[n]? ≠ some '[') :
    Guarded (text.drop n) := by
  intro i _ hopen
  rw [List.getElem?_drop] at hopen
  have hbefore := (h.before hopen).2
  cases i with
  | zero => exact absurd hopen hhead
  | succ i => exact ⟨i.succ_pos, by rw [List.getElem?_drop]; exact hbefore⟩

/-- What stands behind two characters is guarded, unless the second is a backslash. -/
lemma Guarded.behind (h : Guarded (d :: c :: rest)) (hc : c ≠ '\\') : Guarded rest :=
  h.drop (n := 2) fun hopen => hc (by simpa using (h.before hopen).2)

/-- What stands behind a character that escapes no bracket is guarded. -/
lemma Guarded.tail (h : Guarded (c :: rest)) (hc : c = '\\' → rest.head? ≠ some '[') :
    Guarded rest := by
  refine h.drop (n := 1) fun hopen => ?_
  have hbefore : c = '\\' := by simpa using (h.before hopen).2
  exact hc hbefore (by simpa [List.head?_eq_getElem?] using hopen)

/-- **A text that opens nothing** is read to its end. -/
theorem literal_guarded (h : Guarded text) : literal text = (bare text, text.length) := by
  induction text using literal.induct with
  | case1 rest ih | case2 rest ih => simp [literal, bare, ih (h.behind (by decide))]
  | case3 rest => exact absurd rfl h.head?_ne
  | case4 c rest hopen hclose hbracket ih =>
    have hrest : Guarded rest := h.tail fun hc hhead => by
      obtain ⟨more, rfl⟩ := List.head?_eq_some_iff.1 hhead
      exact hopen more hc rfl
    rw [literal.eq_4 c rest hopen hclose hbracket, bare.eq_3 c rest hopen hclose, ih hrest]
    rfl
  | case5 => rfl

/-- Where no bracket has a backslash before it, nothing is taken away. -/
theorem bare_eq_self (hopen : '[' ∉ text) (hclose : ¬ ['\\', ']'] <:+: text) :
    bare text = text := by
  induction text using bare.induct with
  | case1 rest => simp at hopen
  | case2 rest => exact absurd (List.prefix_append ['\\', ']'] rest).isInfix hclose
  | case3 c rest hnotOpen hnotClose ih =>
    rw [bare.eq_3 c rest hnotOpen hnotClose, ih (fun hmem => hopen (.tail c hmem))
      fun hpair => hclose (hpair.trans (List.suffix_cons c rest).isInfix)]
  | case4 => rfl

/-- A text that opens nothing is one segment, and none if it is empty. -/
lemma segments_guarded (h : Guarded text) :
    segments text = if text = [] then [] else [.literal (bare text)] := by
  by_cases hnil : text = []
  · simp [segments, hnil]
  · rw [segments, read_of_ne_nil hnil, lexeme_literal h.head?_ne, literal_guarded h]
    simp [hnil]

/-- **The program of a text that opens nothing** writes the text without the backslashes before its
brackets. -/
theorem instructions_guarded (h : Guarded text) :
    instructions false (segments text) = emitted (bare text) := by
  rw [segments_guarded h]
  split
  · next hnil => rw [hnil]; rfl
  · simp [instructions, Segment.instructions, trimmed, startsTrim]

end BracketTemplate.Grammar
