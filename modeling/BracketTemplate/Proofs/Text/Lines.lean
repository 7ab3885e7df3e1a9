import Mathlib
import BracketTemplate.Proofs.Path.Join

/-!
# The lines of a source

A source is its lines in order, each in front of a line feed or of a carriage return and a line
feed, but for the last, which may have no end (`Lined`).  There is one way to read a source so, and
`lines` finds it (`lined_iff`).

Places count line feeds and lines are shown without their ends, so the two have to be brought
together: the line of a place that has something behind it is one of the lines of the source
(`Lined.line_le`).  A place at the very end need not be, since behind the last line feed no line
starts.
-/

namespace BracketTemplate

/-- Some lines are those of a source.  What ends a line is not part of it: a carriage return before
the line feed belongs to the end. -/
inductive Lined : List Char → List (List Char) → Prop
  | nil : Lined [] []
  | last {line : List Char} (hline : '\n' ∉ line) (hne : line ≠ []) : Lined line [line]
  | closed {line ending source : List Char} {rows : List (List Char)} (hline : '\n' ∉ line)
      (hending : ending = ['\r', '\n'] ∨ ending = ['\n'] ∧ line.getLast? ≠ some '\r')
      (hrest : Lined source rows) : Lined (line ++ ending ++ source) (line :: rows)

/-! ## Reading lines -/

lemma lines_of_not_mem {line : List Char} (h : '\n' ∉ line) (hne : line ≠ []) :
    lines line = [line] := by
  obtain ⟨c, line, rfl⟩ := List.exists_cons_of_ne_nil hne
  rw [lines, splitAt_of_not_mem h]
  rfl

/-- The first line feed ends the first line. -/
lemma lines_feed {raw : List Char} (h : '\n' ∉ raw) (rest : List Char) :
    lines (raw ++ '\n' :: rest) = dropCarriageReturn raw :: lines rest := by
  obtain ⟨pieces, last, hpieces⟩ :=
    (List.eq_nil_or_concat (splitAt '\n' rest)).resolve_left (splitAt_ne_nil '\n' rest)
  rw [List.concat_eq_append] at hpieces
  simp only [lines, splitAt_append, splitAt_of_not_mem h, hpieces, List.singleton_append,
    ← List.cons_append, List.dropLast_concat, List.getLast?_concat, List.map_cons]
  cases last <;> rfl

lemma dropCarriageReturn_of_ne {line : List Char} (h : line.getLast? ≠ some '\r') :
    dropCarriageReturn line = line := if_neg h

lemma dropCarriageReturn_concat (line : List Char) :
    dropCarriageReturn (line ++ ['\r']) = line := by
  simp [dropCarriageReturn]

/-- A line with the line feed behind it is a line and its end. -/
lemma exists_ending (raw : List Char) :
    ∃ line ending, raw ++ ['\n'] = line ++ ending ∧ dropCarriageReturn raw = line ∧
      (ending = ['\r', '\n'] ∨ ending = ['\n'] ∧ line.getLast? ≠ some '\r') := by
  by_cases h : raw.getLast? = some '\r'
  · obtain ⟨line, rfl⟩ := List.getLast?_eq_some_iff.1 h
    exact ⟨line, ['\r', '\n'], by simp, dropCarriageReturn_concat line, .inl rfl⟩
  · exact ⟨raw, ['\n'], rfl, dropCarriageReturn_of_ne h, .inr ⟨rfl, h⟩⟩

/-- **The lines that are read are those of the source.** -/
lemma lined_lines (source : List Char) : Lined source (lines source) := by
  induction h : source.length using Nat.strong_induction_on generalizing source with
  | _ n ih =>
    subst h
    by_cases hmem : '\n' ∈ source
    · obtain ⟨raw, rest, rfl, hraw⟩ := List.eq_append_cons_of_mem hmem
      obtain ⟨line, ending, hsplit, hline, hending⟩ := exists_ending raw
      have hsource : raw ++ '\n' :: rest = line ++ ending ++ rest := by rw [← hsplit]; simp
      have hnot : '\n' ∉ line := by
        rw [← hline, dropCarriageReturn]
        split
        · exact fun hmem => hraw (List.mem_of_mem_dropLast hmem)
        · exact hraw
      rw [lines_feed hraw, hsource, hline]
      exact .closed hnot hending (ih _ (by simp; omega) rest rfl)
    · rcases eq_or_ne source [] with rfl | hne
      · exact .nil
      · rw [lines_of_not_mem hmem hne]
        exact .last hmem hne

/-- **A source has one list of lines**, and it is the one that is read. -/
theorem lined_iff {source : List Char} {rows : List (List Char)} :
    Lined source rows ↔ rows = lines source := by
  refine ⟨fun h => ?_, fun h => h ▸ lined_lines source⟩
  induction h with
  | nil => rfl
  | last hline hne => exact (lines_of_not_mem hline hne).symm
  | @closed line ending source rows hline hending _ ih =>
    subst ih
    rcases hending with rfl | ⟨rfl, hlast⟩
    · have hraw : '\n' ∉ line ++ ['\r'] := by simpa using hline
      have hsplit : line ++ ['\r', '\n'] ++ source = line ++ ['\r'] ++ '\n' :: source := by simp
      rw [hsplit, lines_feed hraw, dropCarriageReturn_concat]
    · have hsplit : line ++ ['\n'] ++ source = line ++ '\n' :: source := by simp
      rw [hsplit, lines_feed hline, dropCarriageReturn_of_ne hlast]

/-! ## Lines of places -/

namespace Position

/-- The line of a place is one more than the line feeds before it. -/
lemma line_after (text : List Char) : (after text).line = text.count '\n' + 1 := by
  induction text using List.reverseRecOn with
  | nil => rfl
  | append_singleton text c ih =>
    rw [after_append, List.foldl_cons, List.foldl_nil, advance]
    split
    · next hc => simp [ih, hc]
    · next hc => simp [ih, hc]

end Position

/-- An end of a line has one line feed, and it comes last. -/
lemma count_take_ending {line ending : List Char} (hline : '\n' ∉ line)
    (hending : ending = ['\r', '\n'] ∨ ending = ['\n'] ∧ line.getLast? ≠ some '\r') {k : Nat}
    (hk : k < (line ++ ending).length) : ((line ++ ending).take k).count '\n' = 0 := by
  have hlast : line ++ ending = (line ++ ending).dropLast ++ ['\n'] := by
    rcases hending with rfl | ⟨rfl, -⟩ <;> simp
  have hnot : '\n' ∉ (line ++ ending).dropLast := by
    rcases hending with rfl | ⟨rfl, -⟩ <;> simpa [List.dropLast_append] using hline
  rw [List.count_eq_zero]
  refine fun hmem => hnot ((List.take_subset k _) ?_)
  rwa [hlast, List.take_append_of_le_length (by rw [List.length_dropLast]; omega)] at hmem

/-- **The line of a place in a source is one of its lines.** -/
theorem Lined.line_le {source : List Char} {rows : List (List Char)} (h : Lined source rows)
    {k : Nat} (hk : k < source.length) : (Position.after (source.take k)).line ≤ rows.length := by
  rw [Position.line_after]
  induction h generalizing k with
  | nil => simp at hk
  | last hline _ =>
    have hzero := List.count_eq_zero.2 fun hmem => hline (List.take_subset k _ hmem)
    rw [hzero, List.length_singleton]
  | @closed line ending source rows hline hending hrest ih =>
    rw [List.length_append] at hk
    rw [List.take_append, List.count_append, List.length_cons]
    rcases lt_or_ge k (line ++ ending).length with hbefore | hbehind
    · rw [count_take_ending hline hending hbefore, Nat.sub_eq_zero_of_le hbefore.le]
      simp
    · have hend : (line ++ ending).count '\n' = 1 := by
        rw [List.count_append, List.count_eq_zero.2 hline]
        rcases hending with rfl | ⟨rfl, -⟩ <;> rfl
      have hmore := ih (k := k - (line ++ ending).length) (by omega)
      rw [List.take_of_length_le hbehind, hend]
      omega

end BracketTemplate
