import Mathlib
import BracketTemplate.Template.Delimiter

/-!
# Brackets that count

Where a code region ends is a matter of single characters: a bracket counts unless the run of
backslashes right before it has odd length, and the region ends at the first closing bracket that
counts while as many brackets have been closed as opened.  This module states that rule without a
scanner (`closing?`), together with the two rules for the text up to that bracket: which dash is a
trim mark (`dashed`) and what the backslashes stand for (`unescape`).

All three rules cut well at places where no run of backslashes is left half read.  `Complete` names
those places, and `closing?_append`, `dashed_append` and `unescape_append` are the three cuts.  A
reader that works in pieces, as the scanner does, has to know no more than that its pieces are
complete.
-/

namespace BracketTemplate.Grammar

/-! ## Runs of backslashes -/

/-- Whether a text ends in a run of backslashes of odd length, which escapes what stands behind. -/
def oddRun (text : List Char) : Bool := (text.reverse.takeWhile (· = '\\')).length % 2 = 1

@[simp] lemma oddRun_nil : oddRun [] = false := rfl

/-- One more character: a backslash turns the parity, any other character ends the run. -/
lemma oddRun_concat (text : List Char) (c : Char) :
    oddRun (text ++ [c]) = (c = '\\' && !oddRun text) := by
  by_cases h : c = '\\'
  · simp only [oddRun, h, List.reverse_append, List.reverse_singleton, List.singleton_append,
      decide_true, List.takeWhile_cons_of_pos, List.length_cons, Bool.true_and]
    rcases Nat.mod_two_eq_zero_or_one (text.reverse.takeWhile (· = '\\')).length with h | h <;>
      simp [h, Nat.add_mod]
  · simp [oddRun, h]

/-- A text after which no run of backslashes is left half read. -/
def Complete (text : List Char) : Prop := oddRun text = false

instance (text : List Char) : Decidable (Complete text) :=
  inferInstanceAs (Decidable (oddRun text = false))

@[simp] lemma complete_nil : Complete [] := rfl

/-- Behind a complete text the parity of a run is that of the run alone. -/
lemma oddRun_append {piece : List Char} (h : Complete piece) (text : List Char) :
    oddRun (piece ++ text) = oddRun text := by
  induction text using List.reverseRecOn with
  | nil => simpa [Complete] using h
  | append_singleton text c ih => rw [← List.append_assoc, oddRun_concat, oddRun_concat, ih]

lemma Complete.append {piece text : List Char} (h : Complete piece) (k : Complete text) :
    Complete (piece ++ text) := (oddRun_append h text).trans k

lemma complete_concat {c : Char} (h : c ≠ '\\') (text : List Char) : Complete (text ++ [c]) := by
  simp [Complete, oddRun_concat, h]

lemma complete_singleton {c : Char} (h : c ≠ '\\') : Complete [c] := complete_concat h []

lemma complete_of_getLast? {text : List Char} (h : text.getLast? ≠ some '\\') : Complete text := by
  cases text using List.reverseRecOn with
  | nil => rfl
  | append_singleton text c => exact complete_concat (by simpa using h) text

lemma oddRun_replicate (n : Nat) : oddRun (List.replicate n '\\') = decide (n % 2 = 1) := by
  simp [oddRun]

/-! ## The closing bracket -/

/-- Whether a bracket stands at a place of a code and counts: no odd run of backslashes stands right
before it. -/
def counts (bracket : Char) (code : List Char) (place : Nat) : Bool :=
  code[place]? = some bracket && !oddRun (code.take place)

/-- How many of the brackets before a place count. -/
def tally (bracket : Char) (code : List Char) (place : Nat) : Nat :=
  (List.range place).countP (counts bracket code)

/-- Whether the region ends at a place of its code, when so many brackets are open already: the
closing bracket there counts, and before it as many were closed as opened. -/
def closesAt (depth : Nat) (code : List Char) (place : Nat) : Bool :=
  counts ']' code place && depth + tally '[' code place = tally ']' code place

/-- The place of the first closing bracket at nesting depth zero. -/
def closing? (depth : Nat) (code : List Char) : Option Nat :=
  (List.range code.length).find? (closesAt depth code)

/-- A region ends at a bracket. -/
lemma getElem?_of_closesAt {depth : Nat} {code : List Char} {place : Nat}
    (h : closesAt depth code place = true) : code[place]? = some ']' := by
  simp only [closesAt, counts, Bool.and_eq_true, decide_eq_true_eq] at h
  exact h.1.1

lemma closing?_eq_some {depth : Nat} {code : List Char} {place : Nat} :
    closing? depth code = some place ↔
      closesAt depth code place = true ∧ ∀ before < place, closesAt depth code before = false := by
  simp only [closing?, List.find?_range_eq_some, List.mem_range, Bool.not_eq_true']
  refine ⟨fun h => ⟨h.1, h.2.2⟩, fun h => ⟨h.1, ?_, h.2⟩⟩
  exact (List.getElem?_eq_some_iff.1 (getElem?_of_closesAt h.1)).1

lemma closing?_eq_none {depth : Nat} {code : List Char} :
    closing? depth code = none ↔ ∀ place, closesAt depth code place = false := by
  simp only [closing?, List.find?_eq_none, List.mem_range]
  refine ⟨fun h place => ?_, fun h place _ => by simp [h place]⟩
  by_cases hp : place < code.length
  · simpa using h place hp
  · simp [closesAt, counts, List.getElem?_eq_none (by omega : code.length ≤ place)]

@[simp] lemma closing?_nil (depth : Nat) : closing? depth [] = none := rfl

/-! ## Cutting a code in pieces -/

lemma counts_append_left (bracket : Char) {piece : List Char} {place : Nat}
    (hp : place < piece.length) (code : List Char) :
    counts bracket (piece ++ code) place = counts bracket piece place := by
  simp [counts, List.getElem?_append_left hp, List.take_append_of_le_length hp.le]

lemma counts_append_right (bracket : Char) {piece : List Char} (h : Complete piece)
    (code : List Char) (place : Nat) :
    counts bracket (piece ++ code) (piece.length + place) = counts bracket code place := by
  simp [counts, List.getElem?_append_right, List.take_length_add_append, oddRun_append h]

lemma tally_append_left (bracket : Char) {piece : List Char} {place : Nat}
    (hp : place ≤ piece.length) (code : List Char) :
    tally bracket (piece ++ code) place = tally bracket piece place := by
  refine List.countP_congr fun i hi => ?_
  rw [counts_append_left bracket (by have := List.mem_range.1 hi; omega)]

lemma tally_append_right (bracket : Char) {piece : List Char} (h : Complete piece)
    (code : List Char) (place : Nat) :
    tally bracket (piece ++ code) (piece.length + place) =
      tally bracket piece piece.length + tally bracket code place := by
  rw [← tally_append_left bracket le_rfl code]
  simp only [tally, List.range_add, List.countP_append, List.countP_map, Nat.add_left_cancel_iff]
  exact List.countP_congr fun i _ => by simp [counts_append_right bracket h]

/-- A complete piece in which the region does not end moves the closing bracket by its length and
the depth by the brackets in it. -/
theorem closing?_append {depth depth' : Nat} {piece : List Char} (h : Complete piece)
    (open' : ∀ place < piece.length, closesAt depth piece place = false)
    (hdepth : depth + tally '[' piece piece.length = depth' + tally ']' piece piece.length)
    (code : List Char) :
    closing? depth (piece ++ code) = (closing? depth' code).map (piece.length + ·) := by
  have hleft : ∀ place < piece.length, closesAt depth (piece ++ code) place = false := by
    intro place hp
    rw [← open' place hp]
    simp only [closesAt, counts_append_left _ hp, tally_append_left _ hp.le]
  have hright : ∀ place, closesAt depth (piece ++ code) (piece.length + place) =
      closesAt depth' code place := by
    intro place
    simp only [closesAt, counts_append_right _ h, tally_append_right _ h]
    congr 2
    exact propext ⟨by omega, by omega⟩
  cases hc : closing? depth' code with
  | none =>
    rw [closing?_eq_none] at hc
    refine closing?_eq_none.2 fun place => ?_
    by_cases hp : place < piece.length
    · exact hleft place hp
    · obtain ⟨rest, rfl⟩ := Nat.exists_eq_add_of_le (not_lt.1 hp)
      rw [hright, hc]
  | some place =>
    rw [closing?_eq_some] at hc
    refine closing?_eq_some.2
      ⟨by rw [hright, hc.1], fun before (hb : before < piece.length + place) => ?_⟩
    by_cases hp : before < piece.length
    · exact hleft before hp
    · obtain ⟨rest, rfl⟩ := Nat.exists_eq_add_of_le (not_lt.1 hp)
      rw [hright, hc.2 rest (by omega)]

/-! ### Pieces -/

/-- A piece in which no bracket counts. -/
def Plain (piece : List Char) : Prop :=
  ∀ place, counts '[' piece place = false ∧ counts ']' piece place = false

lemma Plain.tally_eq_zero {piece : List Char} (h : Plain piece) (n : Nat) :
    tally '[' piece n = 0 ∧ tally ']' piece n = 0 :=
  ⟨List.countP_eq_zero.2 fun place _ => by simp [(h place).1],
    List.countP_eq_zero.2 fun place _ => by simp [(h place).2]⟩

lemma Plain.closesAt {piece : List Char} (h : Plain piece) (depth place : Nat) :
    closesAt depth piece place = false := by
  simp [Grammar.closesAt, (h place).2]

lemma plain_of_no_bracket {piece : List Char} (h : ∀ c ∈ piece, c ≠ '[' ∧ c ≠ ']') :
    Plain piece := by
  have hne : ∀ bracket, bracket = '[' ∨ bracket = ']' → ∀ place : Nat,
      counts bracket piece place = false := by
    intro bracket hb place
    by_cases hc : piece[place]? = some bracket
    · have := h bracket (List.mem_of_getElem? hc)
      rcases hb with rfl | rfl <;> simp_all
    · simp [counts, hc]
  exact fun place => ⟨hne _ (.inl rfl) place, hne _ (.inr rfl) place⟩

lemma plain_nil : Plain [] := plain_of_no_bracket (by simp)

lemma Plain.append {piece code : List Char} (h : Plain piece) (hc : Complete piece)
    (k : Plain code) : Plain (piece ++ code) := by
  intro place
  by_cases hp : place < piece.length
  · rw [counts_append_left _ hp, counts_append_left _ hp]
    exact h place
  · obtain ⟨rest, rfl⟩ := Nat.exists_eq_add_of_le (not_lt.1 hp)
    rw [counts_append_right _ hc, counts_append_right _ hc]
    exact k rest

/-- A backslash and the character behind it are plain. -/
lemma plain_escaped (c : Char) : Plain ['\\', c] := by
  have h : ∀ bracket : Char, bracket ≠ '\\' → ∀ place, counts bracket ['\\', c] place = false := by
    rintro bracket hb (_ | _ | place)
    · simp [counts, hb.symm]
    · have : oddRun ['\\'] = true := by decide
      simp [counts, this]
    · simp [counts]
  exact fun place => ⟨h '[' (by decide) place, h ']' (by decide) place⟩

/-- A plain piece leaves the depth as it is. -/
lemma closing?_plain {piece : List Char} (h : Plain piece) (hc : Complete piece) (depth : Nat)
    (code : List Char) :
    closing? depth (piece ++ code) = (closing? depth code).map (piece.length + ·) :=
  closing?_append hc (fun place _ => h.closesAt depth place)
    (by simp [(h.tally_eq_zero piece.length).1, (h.tally_eq_zero piece.length).2]) code

lemma closing?_open (depth : Nat) (code : List Char) :
    closing? depth ('[' :: code) = (closing? (depth + 1) code).map (1 + ·) := by
  refine closing?_append (complete_singleton (c := '[') (by decide)) ?_ ?_ code
  · simp [closesAt, counts]
  · simp [tally, List.range_succ, counts]

lemma closing?_close_succ (depth : Nat) (code : List Char) :
    closing? (depth + 1) (']' :: code) = (closing? depth code).map (1 + ·) := by
  refine closing?_append (complete_singleton (c := ']') (by decide)) ?_ ?_ code
  · simp [closesAt, tally]
  · simp [tally, List.range_succ, counts]

@[simp] lemma closing?_close_zero (code : List Char) : closing? 0 (']' :: code) = some 0 :=
  closing?_eq_some.2 ⟨by simp [closesAt, counts, tally], by simp⟩

lemma closing?_dash (code : List Char) : closing? 0 ('-' :: ']' :: code) = some 1 := by
  rw [show '-' :: ']' :: code = ['-'] ++ ']' :: code from rfl,
    closing?_plain (plain_of_no_bracket (by simp)) (by decide), closing?_close_zero]
  rfl

/-- Only at depth zero a region ends with its first character. -/
lemma closing?_at_start {depth : Nat} {code : List Char} {place : Nat}
    (h : closing? depth code = some place) (hnil : code.take place = []) :
    depth = 0 ∧ code.head? = some ']' := by
  obtain ⟨hclose, -⟩ := closing?_eq_some.1 h
  have hzero : place = 0 := by
    rcases List.take_eq_nil_iff.1 hnil with h | h
    · exact h
    · simp [h, closesAt, counts] at hclose
  simp only [hzero, closesAt, counts, tally, List.range_zero, List.countP_nil, Nat.add_zero,
    Bool.and_eq_true, decide_eq_true_eq] at hclose
  exact ⟨hclose.2, by simpa [List.head?_eq_getElem?] using hclose.1.1⟩

/-! ## The dash before the bracket -/

/-- Whether a text ends in a dash that no odd run of backslashes stands before. -/
def dashed (text : List Char) : Bool := text.getLast? = some '-' && !oddRun text.dropLast

@[simp] lemma dashed_nil : dashed [] = false := rfl

lemma dashed_concat (text : List Char) (c : Char) :
    dashed (text ++ [c]) = (c = '-' && !oddRun text) := by
  simp [dashed]

lemma dashed_append {piece : List Char} (h : Complete piece) {text : List Char}
    (hd : text = [] → dashed piece = false) : dashed (piece ++ text) = dashed text := by
  cases text using List.reverseRecOn with
  | nil => simpa using hd rfl
  | append_singleton text c =>
    rw [← List.append_assoc, dashed_concat, dashed_concat, oddRun_append h]

lemma not_dashed_of_getLast? {text : List Char} (h : text.getLast? ≠ some '-') :
    dashed text = false := by
  simp [dashed, h]

/-! ## What backslashes stand for -/

/-- A code without its escapes: two backslashes stand for one, a backslash before a bracket for
nothing, and a backslash before any other character for itself. -/
def unescape : List Char → List Char
  | '\\' :: '\\' :: rest => '\\' :: unescape rest
  | '\\' :: c :: rest =>
    if c = '[' ∨ c = ']' then c :: unescape rest else '\\' :: c :: unescape rest
  | c :: rest => c :: unescape rest
  | [] => []

@[simp] lemma unescape_nil : unescape [] = [] := rfl

lemma unescape_cons {c : Char} (h : c ≠ '\\') (code : List Char) :
    unescape (c :: code) = c :: unescape code := by
  rw [unescape.eq_def]
  split <;> simp_all

lemma unescape_escaped {c : Char} (h : c ≠ '\\') (code : List Char) :
    unescape ('\\' :: c :: code) =
      (if c = '[' ∨ c = ']' then [c] else ['\\', c]) ++ unescape code := by
  rw [unescape.eq_2 c code (by simpa using h)]
  split <;> rfl

@[simp] lemma unescape_pair (code : List Char) :
    unescape ('\\' :: '\\' :: code) = '\\' :: unescape code := rfl

/-- Complete pieces are unescaped one by one. -/
theorem unescape_append {piece : List Char} (h : Complete piece) (code : List Char) :
    unescape (piece ++ code) = unescape piece ++ unescape code := by
  induction piece using unescape.induct with
  | case1 rest ih =>
    have hrest : Complete rest := by
      rw [Complete, ← oddRun_append (show Complete ['\\', '\\'] by decide) rest]
      exact h
    simp [ih hrest]
  | case2 c rest hc hb ih | case3 c rest hc hb ih =>
    have hc' : c ≠ '\\' := by simpa using hc
    have hrest : Complete rest := by
      rw [Complete, ← oddRun_append (complete_concat hc' ['\\']) rest]
      exact h
    simp [unescape_escaped hc', hb, ih hrest]
  | case4 c rest _ hc ih =>
    have hc' : c ≠ '\\' := by
      rintro rfl
      cases rest with
      | nil => exact absurd h (by decide)
      | cons d rest => exact hc d rest rfl rfl
    have hrest : Complete rest := by
      rw [Complete, ← oddRun_append (complete_singleton hc') rest]
      exact h
    simp [unescape_cons hc', ih hrest]
  | case5 => rfl

lemma unescape_even (n : Nat) (code : List Char) :
    unescape (List.replicate (2 * n) '\\' ++ code) = List.replicate n '\\' ++ unescape code := by
  induction n with
  | zero => rfl
  | succ n ih => simp [Nat.mul_succ, List.replicate_succ, ih]

/-- What a run of backslashes and the character behind it stand for. -/
theorem unescape_run (n : Nat) {c : Char} (h : c ≠ '\\') (code : List Char) :
    unescape (List.replicate n '\\' ++ c :: code) =
      List.replicate (n / 2) '\\' ++
        (if n % 2 = 1 ∧ c ≠ '[' ∧ c ≠ ']' then ['\\', c] else [c]) ++ unescape code := by
  rcases Nat.mod_two_eq_zero_or_one n with hn | hn
  · obtain ⟨k, rfl⟩ : ∃ k, n = 2 * k := ⟨n / 2, by omega⟩
    simp [unescape_even, unescape_cons h]
  · obtain ⟨k, rfl⟩ : ∃ k, n = 2 * k + 1 := ⟨n / 2, by omega⟩
    have hk : (2 * k + 1) / 2 = k := by omega
    rw [List.replicate_succ', List.append_assoc, unescape_even, List.singleton_append,
      unescape_escaped h, hk, hn, List.append_assoc]
    by_cases hb : c = '[' ∨ c = ']'
    · rcases hb with rfl | rfl <;> simp
    · simp [not_or.1 hb]

lemma unescape_eq_self {code : List Char} (h : '\\' ∉ code) : unescape code = code := by
  induction code with
  | nil => rfl
  | cons c code ih =>
    simp only [List.mem_cons, not_or] at h
    rw [unescape_cons (Ne.symm h.1), ih h.2]

/-- The code between the opening and the closing bracket of a region: without the dash that trims,
and without escapes. -/
def content (inside : List Char) : List Char :=
  unescape (if dashed inside then inside.dropLast else inside)

/-- Behind a complete piece the content goes on by itself. -/
lemma content_append {piece : List Char} (h : Complete piece) {text : List Char}
    (hd : text = [] → dashed piece = false) :
    content (piece ++ text) = unescape piece ++ content text := by
  have hne : dashed text = true → text ≠ [] := by
    rintro k rfl
    exact absurd k (by decide)
  unfold content
  rw [dashed_append h hd]
  split
  · next k => rw [List.dropLast_append_of_ne_nil (hne k), unescape_append h]
  · rw [unescape_append h]

end BracketTemplate.Grammar
