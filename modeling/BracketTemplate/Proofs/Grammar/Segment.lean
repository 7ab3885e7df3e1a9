import Mathlib
import BracketTemplate.Proofs.Grammar.Bracket
import BracketTemplate.Template.Draft

/-!
# Segments

What a source consists of, read character by character: literal text, code regions, static includes,
and at its end perhaps a region that is never closed.  `read` cuts a source into these segments and
tells how many characters each of them takes.  It depends on the text alone; there is no mode, no
buffer and no flag that one segment could leave to the next.

`instructions` says what the segments contribute to a program.  The two trim marks act here and
nowhere else: a segment that trims to its right takes the rest of the line from the text behind it,
and one that trims to its left takes the blanks from the text before it.
-/

namespace BracketTemplate

/-- The instruction that the code of a region becomes; that of a comment becomes none. -/
def Region.instruction? : Region → String → Option Instruction
  | .escaped, code => some (.escaped code)
  | .raw, code => some (.raw code)
  | .statement, code => some (.statement code)
  | .comment, _ | .staticInclude, _ => none

namespace Grammar

/-- A part of a source. -/
inductive Segment where
  /-- Text, without the backslashes before its brackets. -/
  | literal (text : List Char)
  /-- A region of code; the flags say whether it trims to its left and to its right. -/
  | region (kind : Region) (left : Bool) (code : List Char) (right : Bool)
  /-- A static include of a name, with the same two flags. -/
  | inclusion (left : Bool) (name : List Char) (right : Bool)
  /-- A region that never ends. -/
  | unclosed
  deriving DecidableEq, Repr

namespace Segment

/-- Whether the segment takes the blanks before it away. -/
def trimsLeft : Segment → Bool
  | region _ left _ _ | inclusion left _ _ => left
  | _ => false

/-- Whether the segment takes the rest of the line behind it away. -/
def trimsRight : Segment → Bool
  | region _ _ _ right | inclusion _ _ right => right
  | _ => false

/-- Whether the segment is text. -/
def isLiteral : Segment → Bool
  | literal _ => true
  | _ => false

/-- Whether the segment is a static include. -/
def isInclusion : Segment → Bool
  | inclusion .. => true
  | _ => false

end Segment

/-! ## Reading a source -/

/-- The text up to the first bracket that opens something, without the backslashes before brackets,
and how many characters it takes. -/
def literal : List Char → List Char × Nat
  | '\\' :: '[' :: rest => ('[' :: (literal rest).1, (literal rest).2 + 2)
  | '\\' :: ']' :: rest => (']' :: (literal rest).1, (literal rest).2 + 2)
  | '[' :: _ => ([], 0)
  | c :: rest => (c :: (literal rest).1, (literal rest).2 + 1)
  | [] => ([], 0)

/-- The bracket that opens a region, with its marks, at the front of a text. -/
def opening? (text : List Char) : Option Delimiter.Opening :=
  (Delimiter.marked? text).or (Delimiter.open? text)

/-- A segment and the number of characters it takes. -/
structure Lexeme where
  segment : Segment
  length : Nat
  deriving DecidableEq, Repr

/-- The region behind an opening bracket. -/
def region (opening : Delimiter.Opening) (body : List Char) : Lexeme :=
  match closing? 0 body with
  | some place =>
    ⟨.region opening.region opening.trim (content (body.take place)) (dashed (body.take place)),
      opening.length + (place + 1)⟩
  | none => ⟨.unclosed, opening.length + body.length⟩

/-- The segment at the front of a text. -/
def lexeme (text : List Char) : Lexeme :=
  match Delimiter.include? text with
  | some d => ⟨.inclusion d.trimLeft d.name d.trimRight, d.length⟩
  | none =>
    match opening? text with
    | some opening => region opening (text.drop opening.length)
    | none => ⟨.literal (literal text).1, (literal text).2⟩

lemma include?_eq_none {text : List Char} (h : text.head? ≠ some '[') :
    Delimiter.include? text = none := by
  unfold Delimiter.include?
  split
  · exact absurd rfl h
  · rfl

lemma opening?_eq_none {text : List Char} (h : text.head? ≠ some '[') : opening? text = none := by
  have hm : Delimiter.marked? text = none := by
    unfold Delimiter.marked?
    split
    · exact absurd rfl h
    · rfl
  have ho : Delimiter.open? text = none := by
    unfold Delimiter.open?
    split
    · exact absurd rfl h
    · rfl
  rw [opening?, hm, ho, Option.or_none]

lemma opening?_ne_none (text : List Char) : opening? ('[' :: text) ≠ none := by
  simp [opening?, Delimiter.open?]

lemma lexeme_literal {text : List Char} (h : text.head? ≠ some '[') :
    lexeme text = ⟨.literal (literal text).1, (literal text).2⟩ := by
  simp [lexeme, include?_eq_none h, opening?_eq_none h]

/-- A character that opens nothing is text, and so is a backslash before anything but a bracket. -/
lemma literal_cons {c : Char} {rest : List Char} (h : c ≠ '[')
    (k : c = '\\' → rest.head? ≠ some '[' ∧ rest.head? ≠ some ']') :
    literal (c :: rest) = (c :: (literal rest).1, (literal rest).2 + 1) := by
  refine literal.eq_4 c rest ?_ ?_ h
  · rintro more hc rfl
    exact (k hc).1 rfl
  · rintro more hc rfl
    exact (k hc).2 rfl

/-- Text goes on behind a run of characters that are nothing but text. -/
lemma literal_run (text : List Char) :
    literal text =
      (text.takeWhile Delimiter.isText ++ (literal (text.dropWhile Delimiter.isText)).1,
        (text.takeWhile Delimiter.isText).length +
          (literal (text.dropWhile Delimiter.isText)).2) := by
  induction text with
  | nil => rfl
  | cons c text ih =>
    by_cases h : Delimiter.isText c
    · have hc : c ≠ '\\' ∧ c ≠ '[' := by simp_all [Delimiter.isText]
      rw [literal_cons hc.2 (absurd · hc.1), ih]
      simp [h, Nat.add_right_comm]
    · simp [h]

lemma isLiteral_lexeme_open (rest : List Char) :
    (lexeme ('[' :: rest)).segment.isLiteral = false := by
  unfold lexeme
  split
  · rfl
  · split
    · unfold region
      split <;> rfl
    · next h => exact absurd h (opening?_ne_none rest)

lemma literal_open (rest : List Char) : literal ('[' :: rest) = ([], 0) := rfl

lemma literal_ne_nil {text : List Char} (h : text ≠ []) (k : text.head? ≠ some '[') :
    (literal text).1 ≠ [] ∧ 0 < (literal text).2 := by
  rw [literal.eq_def]
  split <;> simp_all

lemma include?_length_pos {text : List Char} {d : Delimiter.Include}
    (h : Delimiter.include? text = some d) : 0 < d.length := by
  unfold Delimiter.include? at h
  split at h <;> [skip; cases h]
  dsimp only at h
  split at h <;> [skip; cases h]
  split at h <;> [skip; cases h]
  split at h <;> [cases h; skip]
  obtain ⟨⟨name, right⟩, -, rfl⟩ := Option.map_eq_some_iff.1 h
  exact Nat.succ_pos _

lemma opening?_length_pos {text : List Char} {opening : Delimiter.Opening}
    (h : opening? text = some opening) : 0 < opening.length := by
  rcases Option.or_eq_some_iff.1 h with h | ⟨-, h⟩
  · unfold Delimiter.marked? at h
    split at h <;> [skip; cases h]
    dsimp only at h
    split at h <;> [skip; cases h]
    obtain ⟨region, -, rfl⟩ := Option.map_eq_some_iff.1 h
    exact Nat.succ_pos _
  · unfold Delimiter.open? at h
    split at h <;> cases h
    exact Nat.succ_pos _

lemma region_length_pos {opening : Delimiter.Opening} (h : 0 < opening.length) (body : List Char) :
    0 < (region opening body).length := by
  unfold region
  split <;> exact Nat.add_pos_left h _

/-- Every segment takes at least one character. -/
lemma lexeme_length_pos {text : List Char} (h : text ≠ []) : 0 < (lexeme text).length := by
  unfold lexeme
  split
  · next d hd => exact include?_length_pos hd
  · split
    · next opening ho => exact region_length_pos (opening?_length_pos ho) _
    · next ho =>
      have hhead : text.head? ≠ some '[' := by
        intro hb
        cases text with
        | nil => cases hb
        | cons c text => cases hb; exact opening?_ne_none text ho
      exact (literal_ne_nil h hhead).2

lemma length_drop_lt {text : List Char} (h : text ≠ []) {count : Nat} (hcount : 0 < count) :
    (text.drop count).length < text.length := by
  have := List.length_pos_iff.2 h
  rw [List.length_drop]
  omega

/-- The segments of a source, each with the number of characters it takes. -/
def read (text : List Char) : List Lexeme :=
  if _h : text = [] then [] else lexeme text :: read (text.drop (lexeme text).length)
termination_by text.length
decreasing_by exact length_drop_lt _h (lexeme_length_pos _h)

@[simp] lemma read_nil : read [] = [] := by rw [read]; rfl

lemma read_of_ne_nil {text : List Char} (h : text ≠ []) :
    read text = lexeme text :: read (text.drop (lexeme text).length) := by
  rw [read, dif_neg h]

/-- The segments of a source. -/
def segments (text : List Char) : List Segment := (read text).map (·.segment)

lemma drop_literal (text : List Char) :
    text.drop (literal text).2 = [] ∨ (text.drop (literal text).2).head? = some '[' := by
  induction text using literal.induct with
  | case1 rest ih | case2 rest ih => simpa [literal] using ih
  | case3 rest => exact .inr rfl
  | case4 c rest hopen hclose hbracket ih =>
    rw [literal.eq_4 c rest hopen hclose hbracket]
    simpa using ih
  | case5 => exact .inl rfl

lemma isLiteral_lexeme {text : List Char} (h : text ≠ []) :
    (lexeme text).segment.isLiteral = true ↔ text.head? ≠ some '[' := by
  constructor
  · intro hliteral hhead
    obtain ⟨rest, rfl⟩ := List.head?_eq_some_iff.1 hhead
    rw [isLiteral_lexeme_open] at hliteral
    cases hliteral
  · intro hhead
    rw [lexeme_literal hhead]
    rfl

/-- No two texts of a source stand side by side. -/
lemma isChain_segments (text : List Char) :
    (segments text).IsChain fun before behind => before.isLiteral → behind.isLiteral = false := by
  induction text using read.induct with
  | case1 => simp [segments]
  | case2 text hne hchain =>
    rw [segments, read_of_ne_nil hne, List.map_cons, List.isChain_cons]
    refine ⟨fun behind hbehind hliteral => ?_, hchain⟩
    have hhead := (isLiteral_lexeme hne).1 hliteral
    rw [lexeme_literal hhead] at hbehind
    rcases drop_literal text with hend | hopen
    · rw [hend] at hbehind
      simp at hbehind
    · obtain ⟨rest, hrest⟩ := List.head?_eq_some_iff.1 hopen
      rw [hrest, read_of_ne_nil (by simp)] at hbehind
      cases hbehind
      exact isLiteral_lexeme_open rest

/-! ## What segments contribute to a program -/

/-- A text without the rest of a line that it starts with. -/
def dropLineEnd (text : List Char) : List Char := text.drop ((Delimiter.lineEnd? text).getD 0)

lemma lineEnd?_eq_none {text : List Char} (h : ∀ c, text.head? = some c →
    c ≠ ' ' ∧ c ≠ '\t' ∧ c ≠ '\n' ∧ c ≠ '\r') : Delimiter.lineEnd? text = none := by
  cases text with
  | nil => rfl
  | cons c text =>
    obtain ⟨hs, ht, hn, hr⟩ := h c rfl
    simp [Delimiter.lineEnd?, hs, ht, hn, hr]

lemma lineEnd?_blank {c : Char} (h : c = ' ' ∨ c = '\t') (text : List Char) :
    Delimiter.lineEnd? (c :: text) = (Delimiter.lineEnd? text).map (· + 1) := by
  have hc : (decide (c = ' ') || decide (c = '\t')) = true := by simpa using h
  unfold Delimiter.lineEnd?
  simp only [List.takeWhile_cons, hc, if_true, List.length_cons, List.drop_succ_cons]
  split <;> rfl

lemma lineEnd?_le {text : List Char} {n : Nat} (h : Delimiter.lineEnd? text = some n) :
    n ≤ text.length := by
  unfold Delimiter.lineEnd? at h
  dsimp only at h
  split at h
  · next heq =>
    have := congrArg List.length heq
    simp only [List.length_drop, List.length_cons] at this
    cases h
    omega
  · next heq =>
    have := congrArg List.length heq
    simp only [List.length_drop, List.length_cons] at this
    cases h
    omega
  · cases h

lemma lineEnd?_feed (text : List Char) : Delimiter.lineEnd? ('\n' :: text) = some 1 := by
  simp [Delimiter.lineEnd?]

lemma lineEnd?_return (text : List Char) :
    Delimiter.lineEnd? ('\r' :: text) = if text.head? = some '\n' then some 2 else none := by
  cases text with
  | nil => rfl
  | cons c text =>
    by_cases h : c = '\n'
    · subst h
      simp [Delimiter.lineEnd?]
    · simp [Delimiter.lineEnd?, h]

lemma head?_literal {c : Char} (ho : c ≠ '[') (hc : c ≠ ']') (hb : c ≠ '\\') (text : List Char) :
    (literal text).1.head? = some c ↔ text.head? = some c := by
  rw [literal.eq_def]
  split <;> simp_all [eq_comm]

/-- The end of a line is written the same in a source and in its text. -/
theorem lineEnd?_literal (text : List Char) :
    Delimiter.lineEnd? (literal text).1 = Delimiter.lineEnd? text := by
  induction text with
  | nil => rfl
  | cons c text ih =>
    by_cases hblank : c = ' ' ∨ c = '\t'
    · have ho : c ≠ '[' ∧ c ≠ '\\' := by rcases hblank with rfl | rfl <;> decide
      rw [literal_cons ho.1 (absurd · ho.2), lineEnd?_blank hblank, lineEnd?_blank hblank, ih]
    by_cases hfeed : c = '\n'
    · subst hfeed
      rw [literal_cons (by decide) (by simp), lineEnd?_feed, lineEnd?_feed]
    by_cases hreturn : c = '\r'
    · subst hreturn
      rw [literal_cons (by decide) (by simp), lineEnd?_return, lineEnd?_return]
      simp only [head?_literal (show '\n' ≠ '[' by decide) (by decide) (by decide)]
    have hnone : ∀ t : List Char, (∀ d, t.head? = some d → d = c ∨ d = '[' ∨ d = ']') →
        Delimiter.lineEnd? t = none := by
      intro t ht
      refine lineEnd?_eq_none fun d hd => ?_
      rcases ht d hd with rfl | rfl | rfl
      · exact ⟨fun h => hblank (.inl h), fun h => hblank (.inr h), hfeed, hreturn⟩
      · decide
      · decide
    rw [hnone (c :: text) (by simp), hnone]
    rw [literal.eq_def]
    split <;> simp_all [eq_comm]

/-- Text goes on behind the end of a line. -/
theorem literal_lineEnd {text : List Char} {n : Nat} (h : Delimiter.lineEnd? text = some n) :
    literal text =
      (text.take n ++ (literal (text.drop n)).1, n + (literal (text.drop n)).2) := by
  induction text generalizing n with
  | nil => cases h
  | cons c text ih =>
    by_cases hblank : c = ' ' ∨ c = '\t'
    · have ho : c ≠ '[' ∧ c ≠ '\\' := by rcases hblank with rfl | rfl <;> decide
      rw [lineEnd?_blank hblank] at h
      obtain ⟨m, hm, rfl⟩ := Option.map_eq_some_iff.1 h
      rw [literal_cons ho.1 (absurd · ho.2), ih hm]
      simp [Nat.add_right_comm]
    by_cases hfeed : c = '\n'
    · subst hfeed
      rw [lineEnd?_feed] at h
      cases h
      rw [literal_cons (by decide) (by simp)]
      simp [Nat.add_comm]
    by_cases hreturn : c = '\r'
    · subst hreturn
      rw [lineEnd?_return] at h
      split at h
      · next hn =>
        cases h
        obtain ⟨text, rfl⟩ := List.head?_eq_some_iff.1 hn
        rw [literal_cons (by decide) (by simp), literal_cons (by decide) (by simp)]
        simp [Nat.add_comm 2]
      · cases h
    rw [lineEnd?_eq_none] at h
    · cases h
    · simp_all

/-- The instruction that writes a text, if there is anything to write. -/
def emitted (text : List Char) : Program :=
  if text = [] then [] else [.emit (String.ofList text)]

@[simp] lemma emitted_nil : emitted [] = [] := rfl

/-- A text between two segments, after what they take from it. -/
def trimmed (after before : Bool) (text : List Char) : List Char :=
  let text := if after then dropLineEnd text else text
  if before then Draft.dropBlanks text else text

/-- What a static include leaves among the instructions of its source: an instruction that a source
never writes itself. -/
def mark (name : List Char) : Instruction := .rootdir ⟨name⟩

lemma mark_injective {name other : List Char} (h : mark name = mark other) : name = other := by
  cases h
  rfl

/-- The instructions of a segment; the flags say whether the segment before it trims to its right
and the one behind it to its left. -/
def Segment.instructions (after before : Bool) : Segment → Program
  | .literal text => emitted (trimmed after before text)
  | .region kind _ code _ => (kind.instruction? (String.ofList code)).toList
  | .inclusion _ name _ => [mark name]
  | .unclosed => []

/-- Whether the first of some segments trims to its left. -/
def startsTrim (segments : List Segment) : Bool := (segments.head?.map (·.trimsLeft)).getD false

/-- The instructions of segments; the flag says whether the segment before them trims to its
right. -/
def instructions (after : Bool) : List Segment → Program
  | [] => []
  | segment :: rest =>
    segment.instructions after (startsTrim rest) ++ instructions segment.trimsRight rest

end Grammar

end BracketTemplate
