import Mathlib
import BracketTemplate.Proofs.Grammar.Segment

/-!
# Where a region ends

A region that has been opened is read up to its closing bracket, or swallows the rest of the source
when it has none (`segments_region`, and `segments_ends` with the place spelled out).  For code
without backslashes the closing bracket is where one expects it: behind a code with as many closing
brackets as opening ones, each behind its own (`segments_balanced`).
-/

namespace BracketTemplate.Grammar

@[simp] lemma segments_nil : segments [] = [] := by simp [segments]

lemma segments_of_ne_nil {text : List Char} (h : text ≠ []) :
    segments text = (lexeme text).segment :: segments (text.drop (lexeme text).length) := by
  rw [segments, read_of_ne_nil h]
  rfl

/-- Text in front of a source. -/
lemma segments_literal {text : List Char} (hne : text ≠ []) (h : text.head? ≠ some '[') :
    segments text = .literal (literal text).1 :: segments (text.drop (literal text).2) := by
  rw [segments_of_ne_nil hne, lexeme_literal h]

/-- A region in front of a source goes up to its closing bracket, and without one to the end. -/
theorem segments_region {text : List Char} {opening : Delimiter.Opening}
    (hinclude : Delimiter.include? text = none) (hopening : opening? text = some opening) :
    segments text =
      match closing? 0 (text.drop opening.length) with
      | some place =>
        .region opening.region opening.trim (content ((text.drop opening.length).take place))
            (dashed ((text.drop opening.length).take place)) ::
          segments (text.drop (opening.length + (place + 1)))
      | none => [.unclosed] := by
  have hne : text ≠ [] := by
    rintro rfl
    cases hopening
  rw [segments_of_ne_nil hne]
  simp only [lexeme, hinclude, hopening, region]
  cases closing? 0 (text.drop opening.length) with
  | some place => rfl
  | none =>
    have hend : text.drop (opening.length + (text.drop opening.length).length) = [] := by
      rw [← List.drop_drop, List.drop_length]
    simp only [hend, segments_nil]

/-- What is left to read behind an opening bracket is cut by the bracket that ends the region: the
first closing bracket that counts while as many have been closed as opened. -/
structure Ends (body inside rest : List Char) : Prop where
  cut : body = inside ++ ']' :: rest
  closes : closesAt 0 body inside.length = true
  first : ∀ before < inside.length, closesAt 0 body before = false

/-- A region is read up to the bracket that ends it, and is never closed when there is none. -/
theorem segments_ends {text : List Char} {opening : Delimiter.Opening}
    (hinclude : Delimiter.include? text = none) (hopening : opening? text = some opening) :
    (∀ inside rest, Ends (text.drop opening.length) inside rest →
      segments text =
        .region opening.region opening.trim (content inside) (dashed inside) :: segments rest) ∧
    ((¬ ∃ inside rest, Ends (text.drop opening.length) inside rest) →
      segments text = [.unclosed]) := by
  have hregion := segments_region hinclude hopening
  constructor
  · rintro inside rest ⟨hcut, hcloses, hfirst⟩
    have hrest : text.drop (opening.length + (inside.length + 1)) = rest := by
      rw [← List.drop_drop, hcut]
      simp
    rw [hregion, closing?_eq_some.2 ⟨hcloses, hfirst⟩]
    simp only [hrest, hcut, List.take_left]
  · intro hends
    cases hclosing : closing? 0 (text.drop opening.length) with
    | none =>
      rw [hregion, hclosing]
    | some place =>
      obtain ⟨hcloses, hfirst⟩ := closing?_eq_some.1 hclosing
      obtain ⟨hlt, hget⟩ := List.getElem?_eq_some_iff.1 (getElem?_of_closesAt hcloses)
      have hlength : ((text.drop opening.length).take place).length = place :=
        List.length_take_of_le hlt.le
      refine absurd ⟨(text.drop opening.length).take place,
        (text.drop opening.length).drop (place + 1), ?_, ?_, ?_⟩ hends
      · rw [← hget, ← List.drop_eq_getElem_cons hlt, List.take_append_drop]
      · rwa [hlength]
      · rwa [hlength]

/-! ## Balanced code -/

/-- As many closing brackets as opening ones, and none before the one it closes. -/
def Balanced (code : List Char) : Prop :=
  code.count '[' = code.count ']' ∧ ∀ n, (code.take n).count ']' ≤ (code.take n).count '['

lemma oddRun_of_no_backslash {code : List Char} (h : '\\' ∉ code) : oddRun code = false :=
  complete_of_getLast? fun hlast => h (List.mem_of_getLast? hlast)

/-- Without backslashes every bracket counts. -/
lemma counts_of_no_backslash {code : List Char} (h : '\\' ∉ code) (bracket : Char) (place : Nat) :
    counts bracket code place = decide (code[place]? = some bracket) := by
  have hodd : oddRun (code.take place) = false :=
    oddRun_of_no_backslash fun hmem => h (List.mem_of_mem_take hmem)
  simp [counts, hodd]

lemma tally_of_no_backslash {code : List Char} (h : '\\' ∉ code) (bracket : Char) (n : Nat) :
    tally bracket code n = (code.take n).count bracket := by
  induction n with
  | zero => simp [tally]
  | succ n ih =>
    have hsucc : tally bracket code (n + 1) =
        tally bracket code n + if code[n]? = some bracket then 1 else 0 := by
      simp [tally, List.range_succ, List.countP_append, counts_of_no_backslash h]
    rw [hsucc, ih, List.take_add_one, List.count_append]
    cases code[n]? <;> simp [List.count_singleton]

/-- A balanced code without backslashes ends with the bracket behind it. -/
lemma closing?_balanced {code : List Char} (h : '\\' ∉ code) (hbalanced : Balanced code)
    (rest : List Char) : closing? 0 (code ++ ']' :: rest) = some code.length := by
  obtain ⟨htotal, hprefix⟩ := hbalanced
  have hinside : ∀ place < code.length, closesAt 0 code place = false := by
    intro place _
    by_contra hcloses
    simp only [closesAt, counts_of_no_backslash h, tally_of_no_backslash h, Bool.and_eq_true,
      decide_eq_true_eq, Bool.not_eq_false, Nat.zero_add] at hcloses
    obtain ⟨hbracket, hequal⟩ := hcloses
    have hmore := hprefix (place + 1)
    simp only [List.take_add_one, hbracket, Option.toList_some, List.count_append] at hmore
    simp at hmore
    omega
  have hlevel : 0 + tally '[' code code.length = 0 + tally ']' code code.length := by
    simp [tally_of_no_backslash h, htotal]
  rw [closing?_append (oddRun_of_no_backslash h) hinside hlevel, closing?_close_zero]
  rfl

/-- **Balanced code stands for itself.**  Where it has no backslash and does not end in a dash, a
region reads exactly the code that is written in it. -/
theorem segments_balanced {text code rest : List Char} {opening : Delimiter.Opening}
    (hinclude : Delimiter.include? text = none) (hopening : opening? text = some opening)
    (hbody : text.drop opening.length = code ++ ']' :: rest) (hplain : '\\' ∉ code)
    (hbalanced : Balanced code) (hdash : code.getLast? ≠ some '-') :
    segments text = .region opening.region opening.trim code false :: segments rest := by
  have hrest : text.drop (opening.length + (code.length + 1)) = rest := by
    rw [← List.drop_drop, hbody]
    simp
  rw [segments_region hinclude hopening, hbody, closing?_balanced hplain hbalanced]
  simp [hrest, content, not_dashed_of_getLast? hdash, unescape_eq_self hplain]

example : segments "[=t[i]] ]".toList =
    [.region .escaped false "t[i]".toList false, .literal " ]".toList] := by decide +kernel

end BracketTemplate.Grammar
