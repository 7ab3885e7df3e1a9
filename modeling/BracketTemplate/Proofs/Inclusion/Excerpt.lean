import Mathlib
import BracketTemplate.Proofs.Inclusion.Blame
import BracketTemplate.Proofs.Text.Lines

/-!
# The lines that an error shows

An excerpt is made of rows, each with the number of a line, a marker on the line in question, and
the line.  `Surrounds` says which rows belong around a line, and `excerpt_eq` that these are the
ones that are shown.  All numbers are set to the width of the last, which is the widest.

That the line in question is among the rows takes more: it has to be a line of the source at all.  A
compile error is about a delimiter (`failsAt_of_start`), so its place has something behind it, in
the source that the error names (`located_of_inline`); and the line of such a place is a line of the
source (`Lined.line_le`).
-/

namespace BracketTemplate

/-! ## Rows -/

/-- A line with its number, and whether it is the line in question. -/
structure Row where
  number : Nat
  marked : Bool
  text : List Char

namespace Row

/-- The number, set to the right of a field of some width. -/
def field (width : Nat) (row : Row) : List Char := (Decimal.digitsOf row.number).leftpad width ' '

/-- A row as it is shown. -/
def written (width : Nat) (row : Row) : List Char :=
  ' ' :: ' ' :: (if row.marked then '>' else ' ') :: ' ' ::
    (row.field width ++ (' ' :: '|' :: ' ' :: (row.text ++ ['\n'])))

end Row

/-- The rows around a line: two lines before it and two behind it, as far as there are any, in
order; each row has the text of the line that it numbers, and the line itself is the one that is
marked. -/
structure Surrounds (lines : List (List Char)) (line : Nat) (rows : List Row) : Prop where
  numbers : rows.map Row.number = List.Ico (max 1 (line - 2)) (min (line + 2) lines.length + 1)
  texts : ∀ row ∈ rows, lines[row.number - 1]? = some row.text
  marks : ∀ row ∈ rows, row.marked = true ↔ row.number = line

/-- One row is marked, and it is that of the line. -/
lemma Surrounds.filter_marked {lines : List (List Char)} {line : Nat} {rows : List Row}
    (h : Surrounds lines line rows) (hfirst : 1 ≤ line) (hlast : line ≤ lines.length) :
    (rows.filter Row.marked).map Row.number = [line] := by
  have hmarks : rows.filter Row.marked = rows.filter ((· == line) ∘ Row.number) :=
    List.filter_congr fun row hrow => by
      rw [Bool.eq_iff_iff, h.marks row hrow, Function.comp_apply, beq_iff_eq]
  have hmem : line ∈ List.Ico (max 1 (line - 2)) (min (line + 2) lines.length + 1) := by
    rw [List.Ico.mem]
    omega
  rw [hmarks, ← List.filter_map, h.numbers, List.filter_beq,
    List.count_eq_one_of_mem (List.Ico.nodup _ _) hmem, List.replicate_one]

/-! ## Excerpts -/

/-- The rows of an excerpt. -/
def rowsAround (lines : List (List Char)) (line : Nat) : List Row :=
  ((lines.take (min (line + 2) lines.length)).drop (line - 3)).mapIdx fun i text =>
    ⟨line - 3 + i + 1, decide (line - 3 + i + 1 = line), text⟩

lemma mem_rowsAround {lines : List (List Char)} {line : Nat} {row : Row}
    (h : row ∈ rowsAround lines line) :
    ∃ i, lines[line - 3 + i]? = some row.text ∧ line - 3 + i < min (line + 2) lines.length ∧
      row.number = line - 3 + i + 1 ∧ row.marked = decide (row.number = line) := by
  obtain ⟨i, hi, rfl⟩ := List.mem_mapIdx.1 h
  have hlast : line - 3 + i < min (line + 2) lines.length := by
    simp only [List.length_drop, List.length_take] at hi
    omega
  exact ⟨i, by simp [List.getElem?_eq_getElem (show line - 3 + i < lines.length by omega)], hlast,
    rfl, rfl⟩

lemma surrounds_rowsAround (lines : List (List Char)) (line : Nat) :
    Surrounds lines line (rowsAround lines line) where
  numbers := by
    have hlength : (rowsAround lines line).length = min (line + 2) lines.length - (line - 3) := by
      simp [rowsAround]
    refine List.ext_getElem ?_ fun i hi hi' => ?_
    · rw [List.length_map, hlength, List.Ico.length]
      omega
    · simp only [rowsAround, List.getElem_map, List.getElem_mapIdx, List.Ico, List.getElem_range']
      omega
  texts row hrow := by
    obtain ⟨i, htext, -, hnumber, -⟩ := mem_rowsAround hrow
    rw [hnumber, Nat.add_sub_cancel, htext]
  marks row hrow := by
    obtain ⟨i, -, -, -, hmarked⟩ := mem_rowsAround hrow
    rw [hmarked, decide_eq_true_iff]

/-- A smaller number has no more digits. -/
lemma length_digitsOf_le {m n : Nat} (h : m ≤ n) :
    (Decimal.digitsOf m).length ≤ (Decimal.digitsOf n).length := by
  have hpos : 0 < (Nat.toDigits 10 n).length := Nat.length_toDigits_pos
  unfold Decimal.digitsOf
  rw [Nat.length_toDigits_le_iff (by decide) hpos]
  exact h.trans_lt ((Nat.length_toDigits_le_iff (by decide) hpos).1 le_rfl)

lemma excerptLine_eq (width line number : Nat) (text : List Char) :
    excerptLine width line number text =
      Row.written width ⟨number, decide (number = line), text⟩ := by
  simp [excerptLine, Row.written, Row.field, List.leftpad]

/-- **An excerpt shows the rows around a line**, with their numbers set to one width. -/
theorem excerpt_eq (source : List Char) (line : Nat) :
    ∃ rows width, Surrounds (lines source) line rows ∧
      (∀ row ∈ rows, (row.field width).length = width) ∧
      excerpt source line = String.ofList (rows.flatMap (Row.written width)) := by
  refine ⟨rowsAround (lines source) line,
    (Decimal.digitsOf (min (line + 2) (lines source).length)).length, surrounds_rowsAround _ line,
    fun row hrow => ?_, ?_⟩
  · obtain ⟨i, -, hlast, hnumber, -⟩ := mem_rowsAround hrow
    rw [Row.field, List.length_leftpad]
    exact max_eq_left (length_digitsOf_le (by omega))
  · simp only [excerpt, excerptLine_eq, rowsAround, List.flatMap, List.mapIdx_eq_zipIdx_map,
      List.map_map]
    rfl

namespace Source

open Grammar

variable {s : Source} {tree : FileTree}

/-! ## Places of errors -/

/-- An error is about a place of a source that a page includes, itself or another, and something
stands behind that place. -/
def Located (tree : FileTree) (page : Source) (e : TemplateError) : Prop :=
  ∃ t k cause, Reaches tree page t ∧ k < t.text.length ∧
    e = t.errorAt (Position.after (t.text.take k)) cause

/-- The place that is reported for a delimiter has something behind it. -/
lemma exists_of_reported {text : List Char} {front behind : List Lexeme} {lexeme : Lexeme}
    {place : Position} (hread : read text = front ++ lexeme :: behind)
    (h : Reported text front place) :
    ∃ k < text.length, place = Position.after (text.take k) := by
  have hfront : charsOf front < text.length := by
    by_contra hle
    have hbehind := read_drop hread
    rw [List.drop_eq_nil_of_le (Nat.not_lt.1 hle)] at hbehind
    simp at hbehind
  by_cases hafter : AfterTrimmedLine front
  · refine ⟨_, lt_of_le_of_lt ?_ hfront, h.aside hafter⟩
    obtain ⟨before, delimiter, line, n, rfl, -⟩ := hafter
    simp [charsOf]
  · exact ⟨_, hfront, h.own hafter⟩

/-- Performing a source fails at a place of it, or where an include is followed from such a
place. -/
lemma place_of_perform {follow : List Char → Position → Draft → Except TemplateError Draft}
    {d : Draft} (hcalm : d.skipNewline = false) {e : TemplateError}
    (h : s.perform follow .start (.start s.text) d (read s.text) = .error e) :
    ∃ k < s.text.length, e = s.errorAt (Position.after (s.text.take k)) .unclosed ∨
      ∃ left name right d', .inclusion left name right ∈ segments s.text ∧ d'.skipNewline = false ∧
        follow name (Position.after (s.text.take k)) d' = .error e := by
  obtain ⟨front, segment, n, behind, place, hread, hplace, hfails⟩ := failsAt_of_start hcalm h
  obtain ⟨k, hk, rfl⟩ := exists_of_reported hread hplace
  refine ⟨k, hk, ?_⟩
  rcases hfails with ⟨-, rfl⟩ | ⟨left, name, right, d', rfl, hcalm', hfollow⟩
  · exact .inl rfl
  · exact .inr ⟨left, name, right, d', by simp [segments, hread], hcalm', hfollow⟩

/-- **Every compile error of a source that is inlined is about a place**, of the source or of one
that it includes, at any depth. -/
lemma located_of_inline {page : Source} {depth : Nat} {chain : List Path}
    (hreached : Reaches tree page s) {d : Draft} (hcalm : d.skipNewline = false) {e : TemplateError}
    (he : e.isCompile = true) (h : inline tree depth chain s d = .error e) :
    Located tree page e := by
  -- a name that stands for no file is no compile error
  have hresolves : ∀ {name : List Char} {t : Source},
      Path.resolveInclude name t.workdir t.rootdir ≠ .error e := by
    intro name t hresolve
    obtain ⟨_, _, rfl⟩ := Path.security_resolveInclude hresolve
    cases he
  induction depth generalizing s chain d with
  | zero =>
    obtain ⟨k, hk, rfl | ⟨left, name, right, d', -, -, hfollow⟩⟩ := place_of_perform hcalm h
    · exact ⟨s, k, _, hreached, hk, rfl⟩
    unfold refuse at hfollow
    rcases hresolve : Path.resolveInclude name s.workdir s.rootdir with e' | target <;>
      rw [hresolve] at hfollow <;> cases hfollow
    · exact absurd hresolve hresolves
    · exact ⟨s, k, _, hreached, hk, rfl⟩
  | succ depth ih =>
    obtain ⟨k, hk, rfl | ⟨left, name, right, d', hsegment, hcalm', hfollow⟩⟩ :=
      place_of_perform hcalm h
    · exact ⟨s, k, _, hreached, hk, rfl⟩
    unfold enter at hfollow
    rcases hresolve : Path.resolveInclude name s.workdir s.rootdir with e' | target <;>
      rw [hresolve] at hfollow
    · cases hfollow
      exact absurd hresolve hresolves
    dsimp only at hfollow
    split at hfollow
    · cases hfollow
      exact ⟨s, k, _, hreached, hk, rfl⟩
    rcases htext : tree.readText target with fault | text <;> rw [htext] at hfollow
    · cases hfollow
      exact ⟨s, k, _, hreached, hk, rfl⟩
    rcases hinner : inline tree depth (target :: chain) (s.included target text)
      ((d'.flushText.touch target).pushWorkdir (s.included target text).workdir) with e' | after <;>
      simp only [hinner] at hfollow <;> cases hfollow
    exact ih (hreached.tail (.mk hsegment hresolve htext))
      (by simpa [Draft.pushWorkdir] using hcalm')
      hinner

/-- **The excerpt of a compile error shows the right lines.**  The error is about a place of the
source that it names, the page or one that it includes at any depth, and its line is a line of that
source.  What is shown are the rows around it, from two lines before it to two lines behind it as
far as there are any, their numbers set to one width; and one of them is marked, which is that of
the line.  The evaluator has no compile errors of its own. -/
theorem compile_excerpt {accepts : String → Program → Except TemplateError Unit}
    {file shown : String} {line column : Nat} {cause : CompileCause}
    (haccepts : ∀ name program e, accepts name program = .error e → e.isCompile = false)
    (h : s.compile accepts tree = .error (.compile file line column cause shown)) :
    ∃ t k lines rows width, Reaches tree s t ∧ file = t.name ∧ k < t.text.length ∧
      Position.after (t.text.take k) = ⟨line, column⟩ ∧ Lined t.text lines ∧
      1 ≤ line ∧ line ≤ lines.length ∧ Surrounds lines line rows ∧
      (rows.filter Row.marked).map Row.number = [line] ∧
      (∀ row ∈ rows, (row.field width).length = width) ∧
      shown = String.ofList (rows.flatMap (Row.written width)) := by
  rw [compile_eq] at h
  split at h
  · next e hinline =>
    cases h
    obtain ⟨t, k, cause', hreached, hk, herror⟩ :=
      located_of_inline .refl (by rw [opening_eq]; rfl) rfl hinline
    obtain ⟨rfl, rfl, rfl, rfl, rfl⟩ := TemplateError.compile.inj herror
    obtain ⟨rows, width, hrows, hwidth, hshown⟩ :=
      excerpt_eq t.text (Position.after (t.text.take k)).line
    have hlined := lined_lines t.text
    have hfirst : 1 ≤ (Position.after (t.text.take k)).line := by
      rw [Position.line_after]
      exact Nat.le_add_left 1 _
    have hlast := hlined.line_le hk
    exact ⟨t, k, _, rows, width, hreached, rfl, hk, rfl, hlined, hfirst, hlast, hrows,
      hrows.filter_marked hfirst hlast, hwidth, hshown⟩
  · next d _ =>
    rcases hverdict : accepts s.name d.program with e | _ <;> rw [hverdict] at h <;> cases h
    cases haccepts _ _ _ hverdict

/-- A file with lines of both ends and a region in its tenth line that is not closed, below a
directory. -/
def tenLinesTree : FileTree where
  entries := [([['d']], .directory),
    ([['d'], ['h']], .file (Utf8.encode "1\r\n2\r\n3\n4\n5\n6\n7\n8\r\n9\n [= y\n".toList) 0)]
  cwd := []

/-- A text that includes it. -/
def tenLinesPage : Source := ⟨"A\n[<d/h]".toList, ⟨['/']⟩, ⟨['/']⟩, none⟩

/-- The excerpt of the error ends with the file, and the smaller numbers are set to the right. -/
theorem compile_excerpt_included :
    tenLinesPage.compile Program.acceptAll tenLinesTree =
        .error (.compile "/d/h" 10 2 .unclosed "     8 | 8\n     9 | 9\n  > 10 |  [= y\n") ∧
      ∃ t lines rows width, Reaches tenLinesTree tenLinesPage t ∧ "/d/h" = t.name ∧
        Lined t.text lines ∧ Surrounds lines 10 rows ∧
        (rows.filter Row.marked).map Row.number = [10] ∧
        "     8 | 8\n     9 | 9\n  > 10 |  [= y\n" =
          String.ofList (rows.flatMap (Row.written width)) := by
  have hcompile : tenLinesPage.compile Program.acceptAll tenLinesTree =
      .error (.compile "/d/h" 10 2 .unclosed "     8 | 8\n     9 | 9\n  > 10 |  [= y\n") := by
    decide +kernel
  obtain ⟨t, _, lines, rows, width, hreached, hname, -, -, hlined, -, -, hrows, hmarked, -,
    hshown⟩ :=
    compile_excerpt (fun _ _ _ h => by cases h) hcompile
  exact ⟨hcompile, t, lines, rows, width, hreached, hname, hlined, hrows, hmarked, hshown⟩

end Source

end BracketTemplate
