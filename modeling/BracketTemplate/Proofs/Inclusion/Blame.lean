import Mathlib
import BracketTemplate.Proofs.Inclusion.Chain

/-!
# The delimiter that an error names

A compile fails at a delimiter: at the bracket of a region that never ends, or at a static include
whose file cannot be read or is being included already.  `Faulty` says what is wrong with it, and
`compile_points` that every compile error is about such a delimiter, of the source or of one that it
includes.

The place in the error is the place of the step of scanning that met the delimiter.  That is the
place of the delimiter itself, but for one case.  The rest of a line that a trimming delimiter takes
away is dropped by the step behind it; when nothing else stands before the next delimiter, the same
step meets that one, and the place is the one behind the trimming delimiter, on the line before
(`AfterTrimmedLine`, `compile_points_aside`).
-/

namespace BracketTemplate

namespace Position

/-- Behind the end of a line stands the first column of the next. -/
lemma foldl_advance_line (p : Position) {line : List Char} (h : '\n' ∉ line) :
    (line ++ ['\n']).foldl advance p = ⟨p.line + 1, 1⟩ := by
  have hline : (line.foldl advance p).line = p.line := by
    induction line generalizing p with
    | nil => rfl
    | cons c line ih =>
      rw [List.mem_cons, not_or] at h
      rw [List.foldl_cons, ih _ h.2, advance, if_neg (Ne.symm h.1)]
  rw [List.foldl_append, List.foldl_cons, List.foldl_nil, advance, if_pos rfl, hline]

end Position

namespace Grammar

/-! ## Places -/

/-- How many characters some segments take. -/
def charsOf (lexemes : List Lexeme) : Nat := (lexemes.map (·.length)).sum

lemma charsOf_concat (lexemes : List Lexeme) (lexeme : Lexeme) :
    charsOf (lexemes ++ [lexeme]) = charsOf lexemes + lexeme.length := by simp [charsOf]

/-- Behind some of its segments a source is read as the others. -/
lemma read_drop {text : List Char} {front behind : List Lexeme} (h : read text = front ++ behind) :
    read (text.drop (charsOf front)) = behind := by
  induction front generalizing text with
  | nil => simpa [charsOf] using h
  | cons first front ih =>
    have hne : text ≠ [] := by
      rintro rfl
      simp at h
    rw [read_of_ne_nil hne, List.cons_append] at h
    obtain ⟨rfl, hrest⟩ := List.cons.inj h
    have hchars : charsOf (lexeme text :: front) = (lexeme text).length + charsOf front := by
      simp [charsOf]
    rw [hchars, ← List.drop_drop, ih hrest]

/-- A segment that is no text starts with a bracket. -/
lemma head?_of_read {text : List Char} {front behind : List Lexeme} {segment : Segment} {n : Nat}
    (h : read text = front ++ ⟨segment, n⟩ :: behind) (hsegment : segment.isLiteral = false) :
    (text.drop (charsOf front)).head? = some '[' := by
  have hread := read_drop h
  have hne : text.drop (charsOf front) ≠ [] := by
    intro hnil
    simp [hnil] at hread
  rw [read_of_ne_nil hne] at hread
  have hsame : (lexeme (text.drop (charsOf front))).segment = segment := by
    rw [(List.cons.inj hread).1]
  by_contra hhead
  rw [← hsame, (isLiteral_lexeme hne).2 hhead] at hsegment
  cases hsegment

/-- Right before a delimiter ends the line of a trimming one: nothing stands between the two but the
white space and the line end that the trimming one takes away. -/
def AfterTrimmedLine (front : List Lexeme) : Prop :=
  ∃ before delimiter line n, front = before ++ [delimiter, ⟨.literal line, n⟩] ∧
    delimiter.segment.trimsRight = true ∧ dropLineEnd line = []

/-- The place in errors about a delimiter of a text that some segments stand before. -/
structure Reported (text : List Char) (front : List Lexeme) (place : Position) : Prop where
  own : ¬ AfterTrimmedLine front → place = Position.after (text.take (charsOf front))
  aside : AfterTrimmedLine front → place = Position.after (text.take (charsOf front.dropLast))

lemma isLiteral_of_trimsRight {segment : Segment} (h : segment.trimsRight = true) :
    segment.isLiteral = false := by
  cases segment with
  | literal => cases h
  | region | inclusion | unclosed => rfl

/-- Only behind a text a delimiter can stand after a trimmed line. -/
lemma not_afterTrimmedLine {front : List Lexeme}
    (h : ∀ lexeme ∈ front.getLast?, lexeme.segment.isLiteral = false) :
    ¬ AfterTrimmedLine front := by
  rintro ⟨before, delimiter, line, n, rfl, -, -⟩
  have := h ⟨.literal line, n⟩ (by simp)
  cases this

lemma afterTrimmedLine_literal {front : List Lexeme} {line : List Char} {n : Nat} :
    AfterTrimmedLine (front ++ [⟨.literal line, n⟩]) ↔
      front.getLast?.any (·.segment.trimsRight) = true ∧ dropLineEnd line = [] := by
  constructor
  · rintro ⟨before, delimiter, line', n', hfront, hdelimiter, hline⟩
    have hsplit : front ++ [⟨.literal line, n⟩] =
        before ++ [delimiter] ++ [⟨.literal line', n'⟩] := by simpa using hfront
    obtain ⟨rfl, hlast⟩ := List.append_inj' hsplit rfl
    obtain ⟨rfl, -⟩ : line = line' ∧ n = n' := by simpa using hlast
    exact ⟨by simpa using hdelimiter, hline⟩
  · rintro ⟨htrims, hline⟩
    obtain ⟨delimiter, hlast, hdelimiter⟩ := (Option.any_eq_true _ _).1 htrims
    obtain ⟨before, rfl⟩ := List.getLast?_eq_some_iff.1 hlast
    exact ⟨before, delimiter, line, n, by simp, hdelimiter, hline⟩

/-- A text that a source is read as is not empty. -/
lemma literal_ne_nil_of_read {text line : List Char} {front behind : List Lexeme} {n : Nat}
    (h : read text = front ++ ⟨.literal line, n⟩ :: behind) : line ≠ [] := by
  have hread := read_drop h
  have hne : text.drop (charsOf front) ≠ [] := by
    intro hnil
    simp [hnil] at hread
  rw [read_of_ne_nil hne] at hread
  have hlexeme := (List.cons.inj hread).1
  have hhead := (isLiteral_lexeme hne).1 (by rw [hlexeme]; rfl)
  rw [lexeme_literal hhead] at hlexeme
  obtain ⟨rfl, -⟩ : (literal (text.drop (charsOf front))).1 = line ∧ _ = n := by
    simpa using hlexeme
  exact (literal_ne_nil hne hhead).1

lemma Reported.of_not {text : List Char} {front : List Lexeme} (h : ¬ AfterTrimmedLine front) :
    Reported text front (Position.after (text.take (charsOf front))) :=
  ⟨fun _ => rfl, fun k => absurd k h⟩

/-- The place behind a text: the rest of a line that the delimiter before it takes away does not
change the place. -/
lemma Reported.literal {text line : List Char} {front behind : List Lexeme} {n : Nat}
    {place : Position} (h : Reported text front place)
    (hread : read text = front ++ ⟨.literal line, n⟩ :: behind) {trims : Bool}
    (htrims : trims = front.getLast?.any (·.segment.trimsRight)) :
    Reported text (front ++ [⟨.literal line, n⟩])
      (if (if trims then dropLineEnd line else line) = [] then place
        else Position.after (text.take (charsOf (front ++ [⟨.literal line, n⟩])))) := by
  subst htrims
  by_cases hafter : AfterTrimmedLine (front ++ [⟨.literal line, n⟩])
  · obtain ⟨htrims, hline⟩ := afterTrimmedLine_literal.1 hafter
    refine ⟨fun hnot => absurd hafter hnot, fun _ => ?_⟩
    rw [if_pos htrims, if_pos hline, List.dropLast_concat]
    refine h.own (not_afterTrimmedLine fun lexeme hmem => isLiteral_of_trimsRight ?_)
    rw [hmem] at htrims
    exact htrims
  · have hkept :
        (if front.getLast?.any (·.segment.trimsRight) then dropLineEnd line else line) ≠ [] := by
      split
      · next htrims => exact fun hline => hafter (afterTrimmedLine_literal.2 ⟨htrims, hline⟩)
      · exact literal_ne_nil_of_read hread
    rw [if_neg hkept]
    exact .of_not hafter

/-- The end of a line that a trimming delimiter takes away: one line feed, at its end. -/
lemma exists_of_lineEnd? {text : List Char} {n : Nat} (h : Delimiter.lineEnd? text = some n) :
    ∃ line, text.take n = line ++ ['\n'] ∧ '\n' ∉ line := by
  induction text generalizing n with
  | nil => cases h
  | cons c text ih =>
    by_cases hblank : c = ' ' ∨ c = '\t'
    · rw [lineEnd?_blank hblank] at h
      obtain ⟨m, hm, rfl⟩ := Option.map_eq_some_iff.1 h
      obtain ⟨line, hline, hmem⟩ := ih hm
      refine ⟨c :: line, by rw [List.take_succ_cons, hline, List.cons_append], ?_⟩
      rcases hblank with rfl | rfl <;> simpa using hmem
    by_cases hfeed : c = '\n'
    · subst hfeed
      rw [lineEnd?_feed] at h
      cases h
      exact ⟨[], rfl, by simp⟩
    by_cases hreturn : c = '\r'
    · subst hreturn
      rw [lineEnd?_return] at h
      split at h
      · next hhead =>
        cases h
        obtain ⟨text, rfl⟩ := List.head?_eq_some_iff.1 hhead
        exact ⟨['\r'], rfl, by decide⟩
      · cases h
    · rw [lineEnd?_eq_none (by simp_all)] at h
      cases h

/-- A text that is nothing but a trimmed line end is written as it is. -/
lemma take_of_dropLineEnd {text line : List Char} {n : Nat} (hne : text ≠ [])
    (hlexeme : lexeme text = ⟨.literal line, n⟩) (hline : dropLineEnd line = []) :
    Delimiter.lineEnd? text = some n := by
  have hhead : text.head? ≠ some '[' := (isLiteral_lexeme hne).1 (by rw [hlexeme]; rfl)
  rw [lexeme_literal hhead] at hlexeme
  obtain ⟨rfl, rfl⟩ : (literal text).1 = line ∧ (literal text).2 = n := by simpa using hlexeme
  rw [dropLineEnd, lineEnd?_literal] at hline
  rcases hend : Delimiter.lineEnd? text with _ | m
  · rw [hend] at hline
    exact absurd hline (literal_ne_nil hne hhead).1
  -- behind the line end there is no more text
  have hmore := literal_lineEnd hend
  have hnil : (literal (text.drop m)).1 = [] := by
    rw [hend, hmore] at hline
    simpa [List.length_take_of_le (lineEnd?_le hend)] using hline
  have hzero : (literal (text.drop m)).2 = 0 := by
    by_cases hdrop : text.drop m = []
    · rw [hdrop, literal]
    · by_cases hopen : (text.drop m).head? = some '['
      · obtain ⟨rest, hrest⟩ := List.head?_eq_some_iff.1 hopen
        rw [hrest, literal_open]
      · exact absurd hnil (literal_ne_nil hdrop hopen).1
  rw [hmore, hzero, Nat.add_zero]

/-- **Where the two places differ**, the delimiter stands at the start of the line below. -/
lemma after_of_afterTrimmedLine {text : List Char} {front behind : List Lexeme}
    (h : read text = front ++ behind) (hafter : AfterTrimmedLine front) :
    Position.after (text.take (charsOf front)) =
      ⟨(Position.after (text.take (charsOf front.dropLast))).line + 1, 1⟩ := by
  obtain ⟨before, delimiter, line, n, rfl, -, hline⟩ := hafter
  have hsplit : before ++ [delimiter, ⟨.literal line, n⟩] =
      before ++ [delimiter] ++ [⟨.literal line, n⟩] := by simp
  rw [hsplit, List.append_assoc, List.singleton_append] at h
  have hread := read_drop h
  set rest := text.drop (charsOf (before ++ [delimiter])) with hrest
  have hne : rest ≠ [] := by
    intro hnil
    simp [hnil] at hread
  rw [read_of_ne_nil hne] at hread
  obtain ⟨taken, htaken, hmem⟩ :=
    exists_of_lineEnd? (take_of_dropLineEnd hne (List.cons.inj hread).1 hline)
  rw [hsplit, List.dropLast_concat, charsOf_concat, List.take_add, ← hrest]
  simp only [htaken]
  rw [Position.after_append, Position.foldl_advance_line _ hmem]

end Grammar

namespace Source

open Grammar

variable {tree : FileTree} {s : Source}

/-! ## Errors of one source -/

/-- Where performing fails: at a region that never ends, or at an include that cannot be
followed. -/
def FailsAt (s : Source) (follow : List Char → Position → Draft → Except TemplateError Draft)
    (e : TemplateError) : Prop :=
  ∃ front segment n behind place, read s.text = front ++ ⟨segment, n⟩ :: behind ∧
    Reported s.text front place ∧
    (segment = .unclosed ∧ e = s.errorAt place .unclosed ∨
      ∃ left name right d, segment = .inclusion left name right ∧ d.skipNewline = false ∧
        follow name place d = .error e)

/-- Performing what is left of a source fails at one of its delimiters.  The invariant is that the
place at hand is the one to be reported for a delimiter at the cursor, and that the draft knows
whether the last delimiter trims. -/
lemma failsAt_of_perform {follow : List Char → Position → Draft → Except TemplateError Draft}
    {front lexemes : List Lexeme} (hread : read s.text = front ++ lexemes) {here : Position}
    (hhere : Reported s.text front here) {d : Draft}
    (hskip : d.skipNewline = front.getLast?.any (·.segment.trimsRight)) {e : TemplateError}
    (h : s.perform follow here ((Cursor.start s.text).advance (charsOf front)) d lexemes =
      .error e) :
    s.FailsAt follow e := by
  induction lexemes generalizing front here d with
  | nil => cases h
  | cons lexeme rest ih =>
    have hread' : read s.text = front ++ [lexeme] ++ rest := by simpa using hread
    have hadvance : ((Cursor.start s.text).advance (charsOf front)).advance lexeme.length =
        (Cursor.start s.text).advance (charsOf (front ++ [lexeme])) := by
      rw [Cursor.advance_advance, charsOf_concat]
    obtain ⟨segment, n⟩ := lexeme
    -- behind a delimiter the place is that of the cursor
    have hdelimiter : segment.isLiteral = false →
        Reported s.text (front ++ [⟨segment, n⟩])
          ((Cursor.start s.text).advance (charsOf (front ++ [⟨segment, n⟩]))).position := by
      intro hsegment
      exact Reported.of_not (not_afterTrimmedLine (by simpa using hsegment))
    cases segment with
    | literal text =>
      have hplace := hhere.literal hread hskip
      simp only [perform] at h
      rw [hadvance] at h
      exact ih hread' hplace (by simp [Draft.pushText, Draft.calm, Segment.trimsRight]) h
    | region kind left code right =>
      simp only [perform] at h
      rw [hadvance] at h
      exact ih hread' (hdelimiter rfl)
        (by simp [Draft.addRegion, Scan.closeRegion, Segment.trimsRight]) h
    | inclusion left name right =>
      simp only [perform] at h
      split at h
      · next e' hfollow =>
        cases h
        refine ⟨front, _, n, rest, here, hread, hhere,
          .inr ⟨left, name, right, _, rfl, ?_, hfollow⟩⟩
        cases left <;> rfl
      · next entered hfollow =>
        rw [hadvance] at h
        exact ih hread' (hdelimiter rfl) (by simp [Segment.trimsRight]) h
    | unclosed =>
      cases h
      exact ⟨front, _, n, rest, here, hread, hhere, .inl ⟨rfl, rfl⟩⟩

/-- Performing a whole source fails at one of its delimiters. -/
lemma failsAt_of_start {follow : List Char → Position → Draft → Except TemplateError Draft}
    {d : Draft} (hcalm : d.skipNewline = false) {e : TemplateError}
    (h : s.perform follow .start (.start s.text) d (read s.text) = .error e) :
    s.FailsAt follow e := by
  have hread : read s.text = [] ++ read s.text := rfl
  have hstart : Reported s.text [] .start := .of_not (not_afterTrimmedLine (by simp))
  exact failsAt_of_perform hread hstart hcalm h

/-! ## Errors of a compile -/

/-- What is wrong with a delimiter of a source that a page includes, itself or another: the region
never ends, the file of an include cannot be read, or it is a file of those that lead to the
source. -/
inductive Faulty (tree : FileTree) (page t : Source) : Segment → CompileCause → Prop
  | unclosed : Faulty tree page t .unclosed .unclosed
  | unreadable {left right : Bool} {name : List Char} {target : Path} {fault : FileFault}
      (hresolve : Path.resolveInclude name t.workdir t.rootdir = .ok target)
      (hread : tree.readText target = .error fault) :
      Faulty tree page t (.inclusion left name right) (.unreadable target fault)
  | circular {left right : Bool} {name : List Char} {target p : Path} {u : Source}
      (hresolve : Path.resolveInclude name t.workdir t.rootdir = .ok target)
      (hpage : Reaches tree page u) (hleads : Reaches tree u t) (hfile : p ∈ u.file)
      (hsame : p.same target = true) :
      Faulty tree page t (.inclusion left name right) (.circular target)

/-- An error is about a faulty delimiter of a page or of a source that it includes. -/
def Blames (tree : FileTree) (page : Source) (e : TemplateError) : Prop :=
  ∃ t front segment n behind place cause, Reaches tree page t ∧
    read t.text = front ++ ⟨segment, n⟩ :: behind ∧ Faulty tree page t segment cause ∧
    Reported t.text front place ∧ e = t.errorAt place cause

/-- **Every compile error of a source that is inlined is about a delimiter.**  There is room for the
includes, so none is refused but for a file on the chain; and each file on the chain is of a source
that leads here. -/
lemma blames_of_inline {page : Source} {n : Nat} {chain : List Path} (hs : s.Confined)
    (hroom : Room tree n chain) (hreached : Reaches tree page s)
    (hchain : ∀ p ∈ chain, ∃ u, Reaches tree page u ∧ Reaches tree u s ∧ p ∈ u.file) {d : Draft}
    (hcalm : d.skipNewline = false) {e : TemplateError} (he : e.isCompile = true)
    (h : inline tree (n + 1) chain s d = .error e) : Blames tree page e := by
  induction n using Nat.strong_induction_on generalizing s chain d with
  | _ n ih =>
    obtain ⟨front, segment, m, behind, place, hread, hplace, hfails⟩ := failsAt_of_start hcalm h
    rcases hfails with ⟨rfl, rfl⟩ | ⟨left, name, right, d', rfl, hcalm', hfollow⟩
    · exact ⟨s, front, _, m, behind, place, _, hreached, hread, .unclosed, hplace, rfl⟩
    unfold enter at hfollow
    rcases hresolve : Path.resolveInclude name s.workdir s.rootdir with e' | target <;>
      rw [hresolve] at hfollow
    · -- a name that stands for no file is no compile error
      cases hfollow
      obtain ⟨_, _, rfl⟩ := Path.security_resolveInclude hresolve
      cases he
    dsimp only at hfollow
    split at hfollow
    · next hany =>
      cases hfollow
      obtain ⟨p, hp, hsame⟩ := List.any_eq_true.1 hany
      obtain ⟨u, hpage, hleads, hfile⟩ := hchain p hp
      exact ⟨s, front, _, m, behind, place, _, hreached, hread,
        .circular hresolve hpage hleads hfile hsame, hplace, rfl⟩
    next hany =>
    rcases htext : tree.readText target with fault | text <;> rw [htext] at hfollow
    · cases hfollow
      exact ⟨s, front, _, m, behind, place, _, hreached, hread,
        .unreadable hresolve htext, hplace, rfl⟩
    -- the file is entered: there is room for it, and its own delimiters are to blame
    obtain ⟨k, rfl, hroom'⟩ := hroom.enter (hs.grounded_target hresolve) htext (by simpa using hany)
    have hsegment : .inclusion left name right ∈ segments s.text := by
      rw [segments, hread]
      simp
    have hincludes : Includes tree s (s.included target text) := .mk hsegment hresolve htext
    rcases hinner : inline tree (k + 1) (target :: chain) (s.included target text)
      ((d'.flushText.touch target).pushWorkdir (s.included target text).workdir) with e' | after <;>
      simp only [hinner] at hfollow <;> cases hfollow
    refine ih k (Nat.lt_succ_self k) (hs.included hresolve htext) hroom' (hreached.tail hincludes)
      (fun p hp => ?_) (by simpa [Draft.pushWorkdir] using hcalm') hinner
    rcases List.mem_cons.1 hp with rfl | hp
    · exact ⟨_, hreached.tail hincludes, .refl, rfl⟩
    · obtain ⟨u, hpage, hleads, hfile⟩ := hchain p hp
      exact ⟨u, hpage, hleads.tail hincludes, hfile⟩

/-- **Compile errors point at the delimiter that causes them**, in the source that it stands in: at
a region that never ends, or at an include whose file cannot be read or leads back to the source.
The line and the column are those of the opening bracket, but for a delimiter after a trimmed line:
that one stands at the start of a line, and the place is the one behind the trimming delimiter, on
the line before.  The evaluator has no compile errors of its own. -/
theorem compile_points {accepts : String → Program → Except TemplateError Unit} {e : TemplateError}
    (hcwd : tree.cwdPath.hasParentSegment = false) (hmade : Made tree s)
    (haccepts : ∀ name program e, accepts name program = .error e → e.isCompile = false)
    (h : s.compile accepts tree = .error e) (he : e.isCompile = true) :
    ∃ t front segment n behind place cause, Reaches tree s t ∧
      read t.text = front ++ ⟨segment, n⟩ :: behind ∧
      (t.text.drop (charsOf front)).head? = some '[' ∧ Faulty tree s t segment cause ∧
      e = t.errorAt place cause ∧
      (¬ AfterTrimmedLine front → place = Position.after (t.text.take (charsOf front))) ∧
      (AfterTrimmedLine front →
        place = Position.after (t.text.take (charsOf front.dropLast)) ∧
        Position.after (t.text.take (charsOf front)) = ⟨place.line + 1, 1⟩) := by
  rw [compile_eq] at h
  split at h
  · next e' hinline =>
    cases h
    have hchain : ∀ p ∈ s.file.toList, ∃ u, Reaches tree s u ∧ Reaches tree u s ∧ p ∈ u.file :=
      fun p hp => ⟨s, .refl, .refl, by simpa using hp⟩
    obtain ⟨t, front, segment, n, behind, place, cause, hreached, hread, hfaulty, hplace, rfl⟩ :=
      blames_of_inline (hmade.confined hcwd) (room_start _) .refl hchain
        (by rw [opening_eq]; rfl) he hinline
    have hsegment : segment.isLiteral = false := by cases hfaulty <;> rfl
    refine ⟨t, front, segment, n, behind, place, cause, hreached, hread,
      head?_of_read hread hsegment,
      hfaulty, rfl, hplace.own, fun hafter => ⟨hplace.aside hafter, ?_⟩⟩
    rw [hplace.aside hafter]
    exact after_of_afterTrimmedLine hread hafter
  · next d hinline =>
    cases hverdict : accepts s.name d.program with
    | ok =>
      rw [hverdict] at h
      cases h
    | error e' =>
      rw [hverdict] at h
      cases h
      rw [haccepts _ _ _ hverdict] at he
      cases he

/-- A file whose region is not closed, below a directory. -/
def unclosedTree : FileTree where
  entries := [([['d']], .directory), ([['d'], ['h']], .file (Utf8.encode "x\n [= y".toList) 0)]
  cwd := []

/-- A text that includes it. -/
def unclosedPage : Source := ⟨"[# head -]\nA [<d/h]".toList, ⟨['/']⟩, ⟨['/']⟩, none⟩

/-- The error names the file of the region, and the place in it. -/
theorem compile_points_included :
    unclosedPage.compile Program.acceptAll unclosedTree =
        .error
          ((unclosedPage.included ⟨"/d/h".toList⟩ "x\n [= y".toList).errorAt ⟨2, 2⟩ .unclosed) ∧
      ∃ t front segment n behind place cause, Reaches unclosedTree unclosedPage t ∧
        read t.text = front ++ ⟨segment, n⟩ :: behind ∧
        Faulty unclosedTree unclosedPage t segment cause ∧
        (unclosedPage.included ⟨"/d/h".toList⟩ "x\n [= y".toList).errorAt ⟨2, 2⟩ .unclosed =
          t.errorAt place cause ∧
        (¬ AfterTrimmedLine front → place = Position.after (t.text.take (charsOf front))) := by
  have hcompile : unclosedPage.compile Program.acceptAll unclosedTree =
      .error ((unclosedPage.included ⟨"/d/h".toList⟩ "x\n [= y".toList).errorAt ⟨2, 2⟩
        .unclosed) := by decide +kernel
  have htext : ofText unclosedTree unclosedPage.text none none none = .ok unclosedPage := by
    decide +kernel
  obtain ⟨t, front, segment, n, behind, place, cause, hreached, hread, -, hfaulty, herror, hown,
    -⟩ :=
    compile_points (by decide +kernel) (.text htext) (fun _ _ _ h => by cases h) hcompile rfl
  exact ⟨hcompile, t, front, segment, n, behind, place, cause, hreached, hread, hfaulty, herror,
    hown⟩

/-- Behind a trimming delimiter and the end of its line the place is not that of the bracket:
neither for a region that never ends nor for an include that cannot be read. -/
theorem compile_points_aside :
    (let page : Source := ⟨"[x-]\n[=y".toList, ⟨['/']⟩, ⟨['/']⟩, none⟩
     page.compile Program.acceptAll ⟨[], [], 0⟩ = .error (page.errorAt ⟨1, 5⟩ .unclosed) ∧
      segments page.text = [.region .statement false ['x'] true, .literal ['\n'], .unclosed] ∧
      Position.after "[x-]\n".toList = ⟨2, 1⟩) ∧
    (let page : Source := ⟨"[x-]\n[<y]".toList, ⟨['/']⟩, ⟨['/']⟩, none⟩
     page.compile Program.acceptAll ⟨[], [], 0⟩ =
        .error (page.errorAt ⟨1, 5⟩ (.unreadable ⟨"/y".toList⟩ .notFound)) ∧
      segments page.text = [.region .statement false ['x'] true, .literal ['\n'],
        .inclusion false ['y'] false]) := by
  decide +kernel

end Source

end BracketTemplate
