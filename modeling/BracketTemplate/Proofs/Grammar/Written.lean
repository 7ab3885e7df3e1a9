import Mathlib
import BracketTemplate.Proofs.Grammar.Print

/-!
# Texts between written regions

A source can be put together from texts and from regions that are written already.  A written region
is read on its own: what opens it, where it ends and what its code is are settled by its own
characters, whatever follows (`segments_written`).  So two sources that are put together from the
same regions, with other texts between them, are read as the same regions with other texts between
them (`segments_alike`).
-/

namespace BracketTemplate.Grammar

/-- Two segments that do not trim are the same, but for a text. -/
inductive Segment.Alike : Segment → Segment → Prop
  | literal {text other : List Char} (htext : text ≠ []) (hother : other ≠ []) :
      Alike (.literal text) (.literal other)
  | region (kind : Region) (code : List Char) :
      Alike (.region kind false code false) (.region kind false code false)

/-- A part of a source. -/
inductive Part where
  | text (text : List Char)
  /-- A region, as it is written. -/
  | region (written : List Char)

namespace Part

/-- A part as it is written: a text with a backslash before each bracket, a region as it is. -/
def written : Part → List Char
  | text t => writeText t
  | region written => written

/-- Texts do not end in a backslash, and a region is just that, with no trim mark. -/
def Proper : Part → Prop
  | text t => t.getLast? ≠ some '\\'
  | region written => ∃ kind code, segments written = [.region kind false code false]

/-- Two parts are the same region, or texts that are both empty or both not. -/
inductive Alike : Part → Part → Prop
  | text {text other : List Char} (h : text = [] ↔ other = []) : Alike (.text text) (.text other)
  | region (written : List Char) : Alike (.region written) (.region written)

/-- A region that is printed without trim marks is read as one. -/
lemma proper_print {kind : Region} {code : List Char} (hstart : kind.mayStart code = true)
    (hdash : code.getLast? ≠ some '-') :
    (Part.region (Segment.region kind false code false).print).Proper := by
  have hread := segments_print_region hstart hdash false false []
  rw [List.append_nil, segments_nil] at hread
  exact ⟨kind, kind.readBack code, hread⟩

end Part

/-! ### A region does not depend on what follows -/

lemma takeWhile_stop {p : Char → Bool} {c : Char} (hc : p c = false) (text rest : List Char) :
    (text ++ c :: rest).takeWhile p = text.takeWhile p := by
  induction text with
  | nil => simp [hc]
  | cons d text ih =>
    rw [List.cons_append, List.takeWhile_cons, List.takeWhile_cons, ih]

/-- A trim mark stands before the first closing bracket, if it stands anywhere. -/
lemma dash_stop (inside : List Char) :
    ∃ trim behind, ∀ rest, Delimiter.dash (inside ++ ']' :: rest) =
      (trim, behind ++ ']' :: rest) := by
  cases inside with
  | nil => exact ⟨false, [], fun _ => rfl⟩
  | cons c inside =>
    by_cases hc : c = '-'
    · subst hc
      exact ⟨true, inside, fun _ => rfl⟩
    · exact ⟨false, c :: inside, fun rest => dash_flag false (by simpa using hc)⟩

/-- What stands behind a closing bracket does not make an include, or keep from one. -/
lemma include?_stop (inside rest : List Char) :
    Delimiter.include? ('[' :: (inside ++ ']' :: rest)) =
      Delimiter.include? ('[' :: (inside ++ [']'])) := by
  obtain ⟨trim, behind, hdash⟩ := dash_stop inside
  simp only [Delimiter.include?, hdash]
  cases behind with
  | nil => rfl
  | cons marker behind =>
    have hname (more : List Char) : (behind ++ ']' :: more).takeWhile (· ≠ ']') =
        behind.takeWhile (· ≠ ']') := takeWhile_stop rfl behind more
    have hlength (more : List Char) :
        (behind.takeWhile (· ≠ ']')).length ≠ (behind ++ ']' :: more).length := by
      have hle : (behind.takeWhile (· ≠ ']')).length ≤ behind.length :=
        (List.takeWhile_sublist _).length_le
      rw [List.length_append, List.length_cons]
      omega
    simp only [List.cons_append, hname, hlength, if_false]

/-- Nor does it make an opening bracket another one. -/
lemma opening?_stop (inside rest : List Char) :
    opening? ('[' :: (inside ++ ']' :: rest)) = opening? ('[' :: (inside ++ [']'])) := by
  obtain ⟨trim, behind, hdash⟩ := dash_stop inside
  simp only [opening?, Delimiter.marked?, Delimiter.open?, hdash]
  cases behind with
  | nil => rfl
  | cons marker behind =>
    have hstop : isWhiteSpace ']' = false := by decide
    simp only [List.cons_append, takeWhile_stop hstop]

/-- A region that ends does so whatever follows. -/
lemma closing?_append_right {body : List Char} {place : Nat} (h : closing? 0 body = some place)
    (rest : List Char) : closing? 0 (body ++ rest) = some place := by
  obtain ⟨hcloses, hfirst⟩ := closing?_eq_some.1 h
  have hlt : place < body.length := (List.getElem?_eq_some_iff.1 (getElem?_of_closesAt hcloses)).1
  have hsame {before : Nat} (hbefore : before < body.length) :
      closesAt 0 (body ++ rest) before = closesAt 0 body before := by
    simp only [closesAt, counts_append_left _ hbefore, tally_append_left _ hbefore.le]
  exact closing?_eq_some.2
    ⟨by rw [hsame hlt, hcloses], fun before hb => by rw [hsame (hb.trans hlt), hfirst before hb]⟩

/-- A text that is read as a region without trim marks is one from bracket to bracket. -/
lemma exists_of_segments {written : List Char} {kind : Region} {code : List Char}
    (h : segments written = [.region kind false code false]) :
    ∃ opening body inside, Delimiter.include? written = none ∧ opening? written = some opening ∧
      written.drop opening.length = body ++ [']'] ∧ closing? 0 (body ++ [']']) = some body.length ∧
      written = '[' :: (inside ++ [']']) ∧
      Segment.region opening.region opening.trim (content body) (dashed body) =
        .region kind false code false := by
  have hne : written ≠ [] := by
    rintro rfl
    rw [segments_nil] at h
    cases h
  have hhead : written.head? = some '[' := by
    by_contra hhead
    rw [segments_literal hne hhead] at h
    cases h
  obtain ⟨more, rfl⟩ := List.head?_eq_some_iff.1 hhead
  obtain ⟨opening, hopening⟩ := Option.ne_none_iff_exists'.1 (opening?_ne_none more)
  have hinclude : Delimiter.include? ('[' :: more) = none := by
    rcases hinclude : Delimiter.include? ('[' :: more) with _ | d
    · rfl
    · rw [segments_of_ne_nil hne, lexeme, hinclude] at h
      cases h
  rw [segments_region hinclude hopening] at h
  rcases hclosing : closing? 0 (('[' :: more).drop opening.length) with _ | place <;>
    rw [hclosing] at h
  · cases h
  injection h with hsegment hnone
  -- the region ends where the text does
  generalize htail : ('[' :: more).drop opening.length = tail at hclosing hsegment hnone
  obtain ⟨hlt, hbracket⟩ := List.getElem?_eq_some_iff.1
    (getElem?_of_closesAt (closing?_eq_some.1 hclosing).1)
  have hend : tail.drop (place + 1) = [] := by
    by_contra hmore
    rw [← List.drop_drop, htail, segments_of_ne_nil hmore] at hnone
    cases hnone
  have hbody : tail = tail.take place ++ [']'] := by
    calc tail = tail.take place ++ tail.drop place := (List.take_append_drop place tail).symm
      _ = tail.take place ++ [']'] := by rw [List.drop_eq_getElem_cons hlt, hbracket, hend]
  obtain ⟨c, front, hfront⟩ := List.exists_cons_of_ne_nil (l := ('[' :: more).take opening.length)
    (by simpa using (opening?_length_pos hopening).ne')
  have hwritten : '[' :: more = c :: (front ++ tail.take place ++ [']']) := by
    calc '[' :: more = ('[' :: more).take opening.length ++ ('[' :: more).drop opening.length :=
          (List.take_append_drop _ _).symm
      _ = c :: front ++ (tail.take place ++ [']']) := by rw [hfront, htail, ← hbody]
      _ = c :: (front ++ tail.take place ++ [']']) := by simp
  refine ⟨opening, tail.take place, front ++ tail.take place, hinclude, hopening, htail.trans hbody,
    ?_, ?_, hsegment⟩
  · rw [← hbody, hclosing, List.length_take_of_le hlt.le]
  · rw [hwritten, (List.cons.inj hwritten).1]

/-- **A written region is read on its own**, whatever follows. -/
lemma segments_written {written : List Char} {kind : Region} {code : List Char}
    (h : segments written = [.region kind false code false]) (rest : List Char) :
    (written ++ rest).head? = some '[' ∧
      segments (written ++ rest) = .region kind false code false :: segments rest := by
  obtain ⟨opening, body, inside, hinclude, hopening, hbody, hclosing, rfl, hsegment⟩ :=
    exists_of_segments h
  have hrest : '[' :: (inside ++ [']']) ++ rest = '[' :: (inside ++ ']' :: rest) := by simp
  rw [← include?_stop inside rest] at hinclude
  rw [← opening?_stop inside rest] at hopening
  have hlength : opening.length ≤ ('[' :: (inside ++ [']'])).length := by
    by_contra hlt
    rw [List.drop_eq_nil_of_le (not_le.1 hlt).le] at hbody
    simp at hbody
  have hbehind : ('[' :: (inside ++ ']' :: rest)).drop opening.length = body ++ ']' :: rest := by
    rw [← hrest, List.drop_append_of_le_length hlength, hbody]
    simp
  have hclosing' : closing? 0 (body ++ ']' :: rest) = some body.length := by
    simpa using closing?_append_right hclosing rest
  have hdrop : ('[' :: (inside ++ ']' :: rest)).drop (opening.length + (body.length + 1)) =
      rest := by
    rw [← List.drop_drop, hbehind]
    simp
  refine ⟨rfl, ?_⟩
  rw [hrest, segments_region hinclude hopening, hbehind, hclosing']
  simp only [List.take_left, hdrop, hsegment]

lemma writeText_append (text more : List Char) :
    writeText (text ++ more) = writeText text ++ writeText more := List.flatMap_append

lemma getLast?_append_ne {text more : List Char} {c : Char} (htext : text.getLast? ≠ some c)
    (hmore : more.getLast? ≠ some c) : (text ++ more).getLast? ≠ some c := by
  rw [List.getLast?_append]
  cases h : more.getLast? with
  | none => simpa using htext
  | some d => simpa [h] using hmore

/-- Texts in front of what is read alike, both empty or both not. -/
lemma alike_writeText {text other rest rest' : List Char} (hempty : text = [] ↔ other = [])
    (hrest : rest = [] ∨ rest.head? = some '[') (hrest' : rest' = [] ∨ rest'.head? = some '[')
    (htext : text.getLast? ≠ some '\\') (hother : other.getLast? ≠ some '\\')
    (h : List.Forall₂ Segment.Alike (segments rest) (segments rest')) :
    List.Forall₂ Segment.Alike (segments (writeText text ++ rest))
      (segments (writeText other ++ rest')) := by
  rw [segments_writeText hrest fun _ => htext, segments_writeText hrest' fun _ => hother]
  by_cases hnil : text = []
  · rw [if_pos hnil, if_pos (hempty.1 hnil)]
    exact h
  · rw [if_neg hnil, if_neg (hempty.not.1 hnil)]
    exact .cons (.literal hnil (hempty.not.1 hnil)) h

/-- **The same regions with other texts between them** are read as that, whatever stands in the
texts.  A text that stands before the parts is carried along, since texts side by side are one. -/
theorem segments_alike {parts others : List Part} (h : List.Forall₂ Part.Alike parts others)
    (hparts : ∀ part ∈ parts, part.Proper) (hothers : ∀ part ∈ others, part.Proper)
    {text other : List Char} (hempty : text = [] ↔ other = [])
    (htext : text.getLast? ≠ some '\\') (hother : other.getLast? ≠ some '\\') :
    List.Forall₂ Segment.Alike (segments (writeText text ++ parts.flatMap Part.written))
      (segments (writeText other ++ others.flatMap Part.written)) := by
  induction h generalizing text other with
  | nil =>
    have hnil : List.Forall₂ Segment.Alike (segments []) (segments []) := by
      rw [segments_nil]
      exact .nil
    exact alike_writeText hempty (.inl rfl) (.inl rfl) htext hother hnil
  | @cons part part' parts others halike _ ih =>
    obtain ⟨hpart, hparts⟩ := List.forall_mem_cons.1 hparts
    obtain ⟨hpart', hothers⟩ := List.forall_mem_cons.1 hothers
    have ih := @ih hparts hothers
    rw [List.flatMap_cons, List.flatMap_cons]
    cases halike with
    | text hboth =>
      rw [Part.written, Part.written, ← List.append_assoc, ← List.append_assoc, ← writeText_append,
        ← writeText_append]
      refine ih ?_ (getLast?_append_ne htext hpart) (getLast?_append_ne hother hpart')
      rw [List.append_eq_nil_iff, List.append_eq_nil_iff, hempty, hboth]
    | region written =>
      obtain ⟨kind, code, hwritten⟩ := hpart
      obtain ⟨hhead, hsegments⟩ := segments_written hwritten (parts.flatMap Part.written)
      obtain ⟨hhead', hsegments'⟩ := segments_written hwritten (others.flatMap Part.written)
      refine alike_writeText hempty (.inr hhead) (.inr hhead') htext hother ?_
      rw [Part.written, hsegments, hsegments']
      exact .cons (.region kind code) (@ih [] [] Iff.rfl (by simp) (by simp))

end BracketTemplate.Grammar
