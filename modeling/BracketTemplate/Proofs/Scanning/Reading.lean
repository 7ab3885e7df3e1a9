import Mathlib
import BracketTemplate.Proofs.Scanning.Region

/-!
# Scanning performs what is read

The scanner works on one draft with modes, a buffer and a flag; `Grammar.read` looks at characters
only.  `Source.perform` is the bridge: it takes the segments of a source one after the other and
does to the draft what each of them asks for, following static includes as it is told.
`scanAll_perform` says that scanning a source is nothing but performing what is read in it, whatever
the draft holds when scanning begins.

The line end that a trimming delimiter takes away is dropped by the first step of scanning behind
it.  When nothing else stands before the next delimiter, that same step recognises the delimiter
too, so its place is reported as the place behind the trimming one.  `perform` keeps that place
(`here`).

Errors stand for themselves: what the draft held when one was raised is of no use to anyone.
`Source.settle` forgets it, and with it the flag of the last delimiter, which no one asks for when a
source has been read to its end.
-/

namespace BracketTemplate

open Grammar

namespace Source

variable (s : Source)

/-- What the outcome of scanning is good for: an error, or the draft. -/
def settle : Outcome → Except TemplateError Draft
  | (.ok (), draft) => .ok draft.calm
  | (.error e, _) => .error e

/-- Does what the segments of a source ask for.  `here` is the place that is reported for a
delimiter at the cursor. -/
def perform (follow : List Char → Position → Draft → Except TemplateError Draft) :
    Position → Cursor → Draft → List Lexeme → Except TemplateError Draft
  | _, _, d, [] => .ok d.flushText.calm
  | here, c, d, ⟨.literal text, n⟩ :: rest =>
    let kept := if d.skipNewline then dropLineEnd text else text
    perform follow (if kept = [] then here else (c.advance n).position) (c.advance n)
      (d.calm.pushText kept) rest
  | _, c, d, ⟨.region kind left code right, n⟩ :: rest =>
    perform follow (c.advance n).position (c.advance n) (d.calm.addRegion kind left code right) rest
  | here, c, d, ⟨.inclusion left name right, n⟩ :: rest =>
    match follow name here (d.calm.trimIf left) with
    | .error e => .error e
    | .ok d =>
      perform follow (c.advance n).position (c.advance n) { d with skipNewline := right } rest
  | here, _, _, ⟨.unclosed, _⟩ :: _ => .error (s.errorAt here .unclosed)

end Source

/-! ## Steps in text mode -/

namespace Scan

/-- A step over text takes a piece of it. -/
lemma textStep_literal {state : State} (hne : state.cursor.rest ≠ [])
    (hhead : state.cursor.rest.head? ≠ some '[') :
    ∃ piece text rest, state.cursor.rest = piece ++ rest ∧ piece ≠ [] ∧
      textStep state = (.proceed, state.write piece.length (·.pushText text)) ∧
      literal state.cursor.rest = (text ++ (literal rest).1, piece.length + (literal rest).2) := by
  obtain ⟨hm, ho⟩ := Option.or_eq_none_iff.1 (opening?_eq_none hhead)
  unfold textStep
  simp only [include?_eq_none hhead, hm, ho]
  split
  · next h =>
    obtain ⟨rest, hrest⟩ := (isPrefixOf_iff _ _).1 h
    exact ⟨_, _, rest, hrest, by simp, rfl, by simp [hrest, literal, Nat.add_comm]⟩
  next hopen =>
  split
  · next h =>
    obtain ⟨rest, hrest⟩ := (isPrefixOf_iff _ _).1 h
    exact ⟨_, _, rest, hrest, by simp, rfl, by simp [hrest, literal, Nat.add_comm]⟩
  next hclose =>
  split
  · next h =>
    obtain ⟨rest, hrest⟩ := (isPrefixOf_iff _ _).1 h
    refine ⟨_, _, rest, hrest, by simp, rfl, ?_⟩
    rw [hrest, List.singleton_append, literal_cons (by decide) (by simp)]
    simp [Nat.add_comm]
  next hstray =>
  split
  · next hrun =>
    refine ⟨_, _, state.cursor.rest.dropWhile Delimiter.isText,
      (List.takeWhile_append_dropWhile).symm, by simpa using hrun, rfl, ?_⟩
    exact literal_run state.cursor.rest
  next hrun =>
  split
  · next h =>
    obtain ⟨rest, hrest⟩ := (isPrefixOf_iff _ _).1 h
    refine ⟨_, _, rest, hrest, by simp, rfl, ?_⟩
    have hnot : ∀ c : Char, c = '[' ∨ c = ']' → rest.head? ≠ some c := by
      rintro c hc hr
      obtain ⟨more, rfl⟩ := List.head?_eq_some_iff.1 hr
      rcases hc with rfl | rfl
      · exact hopen (by simp [hrest])
      · exact hclose (by simp [hrest])
    rw [hrest, List.singleton_append,
      literal_cons (by decide) fun _ => ⟨hnot _ (.inl rfl), hnot _ (.inr rfl)⟩]
    simp [Nat.add_comm]
  · next hback =>
    exfalso
    have hstep : textStep state = (.unrecognized, state) := by
      simp [textStep, include?_eq_none hhead, hm, ho, hopen, hclose, hstray, hrun, hback]
    have := (textStep_takes hne).1
    rw [hstep] at this
    exact this rfl

/-- A step at an opening bracket finds an include, or else opens a region. -/
lemma textStep_open {state : State} {rest : List Char} (h : state.cursor.rest = '[' :: rest) :
    textStep state =
      match Delimiter.include? state.cursor.rest with
      | some d => (.includes d.name d.trimRight,
          state.write d.length fun draft => if d.trimLeft then draft.trimTextEnd else draft)
      | none =>
        match opening? state.cursor.rest with
        | some opening => (.switch .code, state.write opening.length (openRegion opening))
        | none => (.unrecognized, state) := by
  obtain ⟨opening, hopen⟩ : ∃ opening, Delimiter.open? state.cursor.rest = some opening :=
    ⟨_, by rw [h]; rfl⟩
  have hl : ['\\', '['].isPrefixOf state.cursor.rest = false := by rw [h]; rfl
  have hr : ['\\', ']'].isPrefixOf state.cursor.rest = false := by rw [h]; rfl
  simp only [textStep, hl, hr, opening?, hopen, Bool.false_eq_true, if_false]
  cases Delimiter.include? state.cursor.rest <;> cases Delimiter.marked? state.cursor.rest <;> rfl

end Scan

/-! ## Scanning is performing -/

namespace Source

open Scan

variable (s : Source) (follow : List Char → Position → Draft → Outcome)

/-- Text is scanned up to the next opening bracket. -/
lemma scanAll_literal (openedAt : Position) (state : State)
    (hcalm : state.draft.skipNewline = false) :
    s.scanAll follow .text openedAt state =
      s.scanAll follow .text openedAt
        (state.write (literal state.cursor.rest).2 (·.pushText (literal state.cursor.rest).1)) := by
  induction hlen : state.cursor.rest.length using Nat.strong_induction_on generalizing state with
  | _ n ih =>
    by_cases hne : state.cursor.rest = []
    · simp [hne, literal, State.write]
    by_cases hhead : state.cursor.rest.head? = some '['
    · obtain ⟨rest, hrest⟩ := List.head?_eq_some_iff.1 hhead
      simp [hrest, literal_open, State.write]
    obtain ⟨piece, text, rest, hrest, hpiece, hstep, hlit⟩ := textStep_literal hne hhead
    have hrest' : (state.write piece.length (·.pushText text)).cursor.rest = rest := by simp [hrest]
    have hlt : rest.length < n := by
      rw [← hlen]
      exact length_lt_of_piece hrest hpiece
    have hgo := ih rest.length hlt (state.write piece.length (·.pushText text)) hcalm
      (by rw [hrest'])
    rw [scanAll_of_ne_nil _ _ _ _ hne]
    simp only [Mode.scan, Scan.text, hcalm, Bool.false_eq_true, if_false, hstep, afterStep]
    rw [hgo, hrest', hlit, write_write]
    simp

/-- Only text asks whether a line end is to be dropped. -/
lemma perform_calm (follow : List Char → Position → Draft → Except TemplateError Draft)
    (here : Position) (c : Cursor) (d : Draft) {lexemes : List Lexeme}
    (h : ∀ lexeme ∈ lexemes.head?, lexeme.segment.isLiteral = false) :
    s.perform follow here c d lexemes = s.perform follow here c d.calm lexemes := by
  rcases lexemes with _ | ⟨⟨_ | _ | _ | _, n⟩, rest⟩
  · simp [perform]
  · simp [Segment.isLiteral] at h
  · rfl
  · rfl
  · rfl

/-- The line end that a trimming delimiter takes away can be dropped before the text is read. -/
lemma perform_skip (follow : List Char → Position → Draft → Except TemplateError Draft)
    (here : Position) (c : Cursor) (d : Draft) (h : d.skipNewline = true) {n : Nat}
    (hn : (Delimiter.lineEnd? c.rest).getD 0 = n) :
    s.perform follow here c d (read c.rest) =
      s.perform follow here (c.advance n) d.calm (read (c.rest.drop n)) := by
  by_cases hhead : c.rest.head? = some '[' ∨ c.rest = []
  · -- no text: there is no line end to drop
    have hzero : n = 0 := by
      rw [← hn, lineEnd?_eq_none]
      · rfl
      · rcases hhead with hhead | hhead <;> simp [hhead]
    rw [hzero, Cursor.advance_zero, List.drop_zero]
    refine s.perform_calm follow here c d fun lexeme hmem => ?_
    rcases hhead with hhead | hhead
    · obtain ⟨rest, hrest⟩ := List.head?_eq_some_iff.1 hhead
      rw [hrest, read_of_ne_nil (by simp)] at hmem
      cases hmem
      exact isLiteral_lexeme_open rest
    · simp [hhead] at hmem
  obtain ⟨hopen, hne⟩ := not_or.1 hhead
  have hlit := literal_ne_nil hne hopen
  have hkept : dropLineEnd (literal c.rest).1 = (literal c.rest).1.drop n := by
    rw [dropLineEnd, lineEnd?_literal, hn]
  rw [read_of_ne_nil hne, lexeme_literal hopen]
  simp only [perform, h, if_true, hkept]
  cases hline : Delimiter.lineEnd? c.rest with
  | none =>
    obtain rfl : 0 = n := by rw [← hn, hline]; rfl
    simp [read_of_ne_nil hne, lexeme_literal hopen, perform, hlit.1, Draft.calm]
  | some m =>
    obtain rfl : m = n := by rw [← hn, hline]; rfl
    have hdrop : (literal c.rest).1.drop m = (literal (c.rest.drop m)).1 := by
      rw [literal_lineEnd hline]
      exact List.drop_left' (List.length_take_of_le (lineEnd?_le hline))
    have hcount : (literal c.rest).2 = m + (literal (c.rest.drop m)).2 := by
      rw [literal_lineEnd hline]
    rw [hdrop, hcount, ← List.drop_drop, ← Cursor.advance_advance]
    by_cases hrest : (c.rest.drop m).head? = some '[' ∨ c.rest.drop m = []
    · -- the line end was all the text there was
      have hnil : literal (c.rest.drop m) = ([], 0) := by
        rcases hrest with hrest | hrest
        · obtain ⟨rest, hrest⟩ := List.head?_eq_some_iff.1 hrest
          rw [hrest, literal_open]
        · rw [hrest, literal]
      simp [hnil]
    · obtain ⟨hopen', hne'⟩ := not_or.1 hrest
      simp [read_of_ne_nil hne', lexeme_literal hopen', perform, literal_ne_nil hne' hopen',
        Draft.calm]

/-- What follows static includes in scanning and in performing. -/
structure Follows (follow : List Char → Position → Draft → Outcome)
    (follow' : List Char → Position → Draft → Except TemplateError Draft) : Prop where
  settles : ∀ name here d, d.opened = 0 → follow' name here d = settle (follow name here d)
  opened : ∀ name here d d', d.opened = 0 → follow' name here d = .ok d' → d'.opened = 0

variable {follow} {follow' : List Char → Position → Draft → Except TemplateError Draft}

/-- Scanning and performing agree on rests shorter than a bound. -/
def AgreeBelow (follow : List Char → Position → Draft → Outcome)
    (follow' : List Char → Position → Draft → Except TemplateError Draft) (bound : Nat) : Prop :=
  ∀ openedAt (after : State), after.cursor.rest.length < bound → after.draft.opened = 0 →
    settle (s.scanAll follow .text openedAt after) =
      s.perform follow' after.cursor.position after.cursor after.draft (read after.cursor.rest)

lemma calm_of_skipNewline {d : Draft} (h : d.skipNewline = false) : d.calm = d := by
  rw [Draft.calm, ← h]

/-- At a static include the caller follows it, and scanning goes on behind it. -/
lemma afterStep_inclusion (hf : Follows follow follow') {state : State}
    (hne : state.cursor.rest ≠ []) (hcalm : state.draft.skipNewline = false)
    (hopened : state.draft.opened = 0)
    (hagree : s.AgreeBelow follow follow' state.cursor.rest.length)
    (openedAt here : Position) {d : Delimiter.Include}
    (hinc : Delimiter.include? state.cursor.rest = some d) :
    settle (s.afterStep follow (s.scanAll follow) .text openedAt here
        (.includes d.name d.trimRight, state.write d.length (·.trimIf d.trimLeft))) =
      s.perform follow' here state.cursor state.draft (read state.cursor.rest) := by
  have hopened' : (state.draft.trimIf d.trimLeft).opened = 0 := by simpa using hopened
  simp only [read_of_ne_nil hne, lexeme, hinc, afterStep, perform, draft_write,
    calm_of_skipNewline hcalm]
  rw [hf.settles _ _ _ hopened', Draft.trimIf]
  rcases hfollow : follow d.name here (state.draft.trimIf d.trimLeft) with ⟨_ | _, draft⟩
  · rw [Draft.trimIf] at hfollow
    rw [hfollow]
    rfl
  · have hzero := hf.opened d.name here _ draft.calm hopened'
      (by rw [hf.settles _ _ _ hopened', hfollow]; rfl)
    rw [Draft.trimIf] at hfollow
    rw [hfollow]
    exact hagree openedAt _ (by simpa using length_drop_lt hne (include?_length_pos hinc)) hzero

/-- At an opening delimiter the code of the region is read to its end, when it has one. -/
lemma afterStep_region {state : State} (hne : state.cursor.rest ≠ [])
    (hcalm : state.draft.skipNewline = false) (hopened : state.draft.opened = 0)
    (hagree : s.AgreeBelow follow follow' state.cursor.rest.length)
    (openedAt here : Position) {opening : Delimiter.Opening}
    (hinc : Delimiter.include? state.cursor.rest = none)
    (hopening : opening? state.cursor.rest = some opening) :
    settle (s.afterStep follow (s.scanAll follow) .text openedAt here
        (.switch .code, state.write opening.length (openRegion opening))) =
      s.perform follow' here state.cursor state.draft (read state.cursor.rest) := by
  have hpos := opening?_length_pos hopening
  have hregion : openRegion opening state.draft =
      (state.draft.trimIf opening.trim).openRegion opening.region := rfl
  have hzero : (openRegion opening state.draft).opened = 0 := by
    rw [hregion]
    simpa using hopened
  simp only [read_of_ne_nil hne, lexeme, hinc, hopening, afterStep, if_true, region]
  cases hclosing : closing? 0 (state.cursor.rest.drop opening.length) with
  | none =>
    obtain ⟨draft, hscan⟩ := s.scanAll_code_unclosed follow here
      (state.write opening.length (openRegion opening))
      (by rw [draft_write, hzero, rest_write]; exact hclosing)
    rw [hscan]
    rfl
  | some place =>
    rw [s.scanAll_code_closed follow here (state.write opening.length (openRegion opening))
      (by rw [draft_write, hzero, rest_write]; exact hclosing), write_write]
    have hadd : closeRegion (dashed ((state.cursor.rest.drop opening.length).take place))
        ({ openRegion opening state.draft with opened := 0 }.pushCode
          (content ((state.cursor.rest.drop opening.length).take place))) =
        state.draft.addRegion opening.region opening.trim
          (content ((state.cursor.rest.drop opening.length).take place))
          (dashed ((state.cursor.rest.drop opening.length).take place)) := by
      rw [Draft.setOpened_self _ hzero]
      rfl
    simp only [rest_write]
    rw [hagree here _ (by simpa using length_drop_lt hne (Nat.add_pos_left hpos (place + 1)))
      (by rw [draft_write, hadd]; simpa using hopened), draft_write, hadd]
    simp only [perform, calm_of_skipNewline hcalm]
    rfl

/-- Steps over text lead to the next bracket, whatever pieces they take. -/
lemma afterStep_literal {state : State} (hne : state.cursor.rest ≠ [])
    (hcalm : state.draft.skipNewline = false) (hopened : state.draft.opened = 0)
    (hagree : s.AgreeBelow follow follow' state.cursor.rest.length)
    (openedAt here : Position) (hhead : state.cursor.rest.head? ≠ some '[') :
    settle (s.afterStep follow (s.scanAll follow) .text openedAt here (textStep state)) =
      s.perform follow' here state.cursor state.draft (read state.cursor.rest) := by
  have hlit := literal_ne_nil hne hhead
  obtain ⟨piece, text, rest, hrest, hpiece, hstep, hread⟩ := textStep_literal hne hhead
  have hrest' : (state.write piece.length (·.pushText text)).cursor.rest = rest := by simp [hrest]
  simp only [read_of_ne_nil hne, lexeme_literal hhead, hstep, afterStep, perform, hcalm,
    calm_of_skipNewline hcalm, Bool.false_eq_true, if_false, if_neg hlit.1]
  rw [s.scanAll_literal follow openedAt (state.write piece.length (·.pushText text)) hcalm, hrest',
    write_write]
  have hsame : (state.write (piece.length + (literal rest).2) fun d =>
      (d.pushText text).pushText (literal rest).1) =
      state.write (literal state.cursor.rest).2 (·.pushText (literal state.cursor.rest).1) := by
    rw [hread]
    simp
  rw [hsame]
  exact hagree openedAt _ (by simpa using length_drop_lt hne hlit.2) hopened

/-- A step of scanning from a calm draft, and what comes behind it. -/
lemma afterStep_perform (hf : Follows follow follow') {state : State}
    (hne : state.cursor.rest ≠ []) (hcalm : state.draft.skipNewline = false)
    (hopened : state.draft.opened = 0)
    (hagree : s.AgreeBelow follow follow' state.cursor.rest.length)
    (openedAt here : Position) :
    settle (s.afterStep follow (s.scanAll follow) .text openedAt here (textStep state)) =
      s.perform follow' here state.cursor state.draft (read state.cursor.rest) := by
  by_cases hhead : state.cursor.rest.head? = some '['
  · obtain ⟨rest, hrest⟩ := List.head?_eq_some_iff.1 hhead
    rw [textStep_open hrest]
    cases hinc : Delimiter.include? state.cursor.rest with
    | some d => exact s.afterStep_inclusion hf hne hcalm hopened hagree openedAt here hinc
    | none =>
      obtain ⟨opening, hopening⟩ := Option.ne_none_iff_exists'.1
        (by rw [hrest]; exact opening?_ne_none rest : opening? state.cursor.rest ≠ none)
      simp only [hopening]
      exact s.afterStep_region hne hcalm hopened hagree openedAt here hinc hopening
  · exact s.afterStep_literal hne hcalm hopened hagree openedAt here hhead

/-- **Scanning is performing.**  What a source contributes to a draft is what its segments ask for,
one after the other. -/
theorem scanAll_perform (hf : Follows follow follow') (openedAt : Position) (state : State)
    (hopened : state.draft.opened = 0) :
    settle (s.scanAll follow .text openedAt state) =
      s.perform follow' state.cursor.position state.cursor state.draft
        (read state.cursor.rest) := by
  induction hlen : state.cursor.rest.length using Nat.strong_induction_on
    generalizing state openedAt with
  | _ n ih =>
    by_cases hne : state.cursor.rest = []
    · rw [scanAll_of_nil _ _ _ _ hne, hne]
      simp [finishScan, hopened, settle, perform]
    have hshort : s.AgreeBelow follow follow' state.cursor.rest.length :=
      fun openedAt after hlt hzero => ih _ (by omega) openedAt after hzero rfl
    rw [scanAll_of_ne_nil _ _ _ _ hne]
    cases hskip : state.draft.skipNewline with
    | false =>
      simp only [Mode.scan, Scan.text, hskip, Bool.false_eq_true, if_false]
      exact s.afterStep_perform hf hne hskip hopened hshort _ _
    | true =>
      rw [s.perform_skip follow' _ _ _ hskip rfl]
      simp only [Mode.scan, Scan.text, hskip, if_true]
      set line := (Delimiter.lineEnd? state.cursor.rest).getD 0
      split
      · next hend =>
        have hnil : state.cursor.rest.drop line = [] := by simpa [Cursor.atEnd] using hend
        simp only [afterStep]
        rw [scanAll_of_nil _ _ _ _ hnil, hnil]
        simp [finishScan, hopened, settle, perform, Draft.calm]
      · next hend =>
        have hmore : (State.mk (state.cursor.advance line) state.draft.calm).cursor.rest ≠ [] := by
          simpa [Cursor.atEnd] using hend
        refine s.afterStep_perform hf hmore rfl hopened (fun openedAt after hlt hzero => ?_) _ _
        refine hshort openedAt after (hlt.trans_le ?_) hzero
        simp

end Source

end BracketTemplate
