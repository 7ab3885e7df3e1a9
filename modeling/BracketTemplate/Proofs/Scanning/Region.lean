import Mathlib
import BracketTemplate.Proofs.Scanning.Draft
import BracketTemplate.Proofs.Scanning.Progress

/-!
# Regions end where the bracket rule says

In code mode the scanner works in pieces: runs of code characters, runs of backslashes with the
character they escape, single brackets and dashes.  `CodeStep` lists what one step can be, and
`code_step` is the inversion: each piece is complete, so the rules of `Grammar.Bracket` can be cut
at its end.

From it the two statements about a whole region follow by induction on what is left to read.
`scanAll_code_closed`: when a closing bracket at depth zero exists, scanning arrives behind the
first of them, back in text mode, with the content of the region as its code.
`scanAll_code_unclosed`: when there is none, scanning ends with the error that reports where the
region was opened.
-/

namespace BracketTemplate

namespace Scan

open Grammar

@[simp] lemma rest_write (state : State) (count : Nat) (f : Draft → Draft) :
    (state.write count f).cursor.rest = state.cursor.rest.drop count := rfl

@[simp] lemma draft_write (state : State) (count : Nat) (f : Draft → Draft) :
    (state.write count f).draft = f state.draft := rfl

/-- Moving on and writing twice is doing so once. -/
lemma write_write (state : State) (m n : Nat) (f g : Draft → Draft) :
    (state.write m f).write n g = state.write (m + n) fun d => g (f d) := by
  simp [State.write, Cursor.advance_advance]

/-- What stands behind a piece of a text is shorter than the text. -/
lemma length_lt_of_piece {text piece rest : List Char} (h : text = piece ++ rest)
    (hpiece : piece ≠ []) : rest.length < text.length := by
  have := List.length_pos_iff.2 hpiece
  rw [h, List.length_append]
  omega

/-! ## One step -/

/-- What a step in code mode can be. -/
inductive CodeStep (state : State) : Step × State → Prop
  /-- The region ends with a dash and a bracket. -/
  | trimmed (rest : List Char) (hrest : state.cursor.rest = '-' :: ']' :: rest)
      (hdepth : state.draft.opened = 0) :
      CodeStep state (.switch .text, state.write 2 (closeRegion true))
  /-- The region ends with a bracket. -/
  | closed (rest : List Char) (hrest : state.cursor.rest = ']' :: rest)
      (hdepth : state.draft.opened = 0) :
      CodeStep state (.switch .text, state.write 1 (closeRegion false))
  /-- A piece in which the region does not end; a bracket in it changes the depth.  If the piece
  ends in a dash that could be a trim mark, the bracket behind it does not end the region either. -/
  | piece (piece rest : List Char) (depth : Nat) (hrest : state.cursor.rest = piece ++ rest)
      (hne : piece ≠ []) (hcomplete : Complete piece)
      (hclosing : ∀ code, closing? state.draft.opened (piece ++ code) =
        (closing? depth code).map (piece.length + ·))
      (hdash : depth = 0 → rest.head? = some ']' → dashed piece = false) :
      CodeStep state (.proceed,
        state.write piece.length fun d => { d with opened := depth }.pushCode (unescape piece))
  /-- Nothing is left but a run of backslashes with nothing to escape. -/
  | half (code : List Char) (hne : state.cursor.rest ≠ []) (hplain : Plain state.cursor.rest) :
      CodeStep state (.proceed, state.write state.cursor.rest.length (·.pushCode code))

/-- A plain piece leaves the depth as it is. -/
lemma CodeStep.of_plain (state : State) (piece rest : List Char)
    (hrest : state.cursor.rest = piece ++ rest) (hne : piece ≠ []) (hcomplete : Complete piece)
    (hplain : Plain piece)
    (hdash : state.draft.opened = 0 → rest.head? = some ']' → dashed piece = false) :
    CodeStep state (.proceed, state.write piece.length (·.pushCode (unescape piece))) :=
  .piece piece rest state.draft.opened hrest hne hcomplete
    (closing?_plain hplain hcomplete state.draft.opened) hdash

lemma isPrefixOf_iff (piece rest : List Char) :
    piece.isPrefixOf rest = true ↔ ∃ more, rest = piece ++ more := by
  rw [List.isPrefixOf_iff_prefix]
  exact ⟨fun ⟨more, h⟩ => ⟨more, h.symm⟩, fun ⟨more, h⟩ => ⟨more, h.symm⟩⟩

lemma plain_replicate (n : Nat) : Plain (List.replicate n '\\') :=
  plain_of_no_bracket fun c hc => by rw [List.eq_of_mem_replicate hc]; decide

/-- A run of backslashes ends where another character stands, or at the end. -/
lemma exists_run (code : List Char) :
    ∃ n tail, code = List.replicate n '\\' ++ tail ∧ tail.head? ≠ some '\\' := by
  induction code with
  | nil => exact ⟨0, [], rfl, by simp⟩
  | cons c code ih =>
    by_cases h : c = '\\'
    · obtain ⟨n, tail, rfl, ht⟩ := ih
      exact ⟨n + 1, tail, by simp [h, List.replicate_succ], ht⟩
    · exact ⟨0, c :: code, rfl, by simpa using h⟩

lemma takeWhile_run (n : Nat) {tail : List Char} (h : tail.head? ≠ some '\\') :
    (List.replicate n '\\' ++ tail).takeWhile (· = '\\') = List.replicate n '\\' := by
  rw [List.takeWhile_append_of_pos fun c hc => by simpa using List.eq_of_mem_replicate hc]
  cases tail with
  | nil => simp
  | cons c tail => simp_all

lemma backslashes_even (n : Nat) {tail : List Char} (h : tail.head? ≠ some '\\') :
    backslashes (List.replicate (2 * n) '\\' ++ tail) =
      (unescape (List.replicate (2 * n) '\\'), 2 * n) := by
  have hu : unescape (List.replicate (2 * n) '\\') = List.replicate n '\\' := by
    simpa using unescape_even n []
  simp [backslashes, takeWhile_run _ h, hu]

lemma backslashes_odd (n : Nat) {c : Char} (h : c ≠ '\\') (tail : List Char) :
    backslashes (List.replicate (2 * n + 1) '\\' ++ c :: tail) =
      (unescape (List.replicate (2 * n + 1) '\\' ++ [c]), 2 * n + 2) := by
  have hdiv : (2 * n + 1) / 2 = n := by omega
  have hmod : (2 * n + 1) % 2 = 1 := by omega
  rw [unescape_run _ h, hdiv, hmod]
  simp only [backslashes, takeWhile_run _ (show (c :: tail).head? ≠ some '\\' by simpa using h),
    List.length_replicate, hmod, hdiv, List.drop_left']
  by_cases hb : c = '[' ∨ c = ']'
  · rcases hb with rfl | rfl <;> simp
  · simp [not_or.1 hb]

/-- A run of backslashes at the front of a code, with the character it escapes, is a piece. -/
lemma backslashes_step {state : State} (h : state.cursor.rest.head? = some '\\') :
    CodeStep state (.proceed, state.write (backslashes state.cursor.rest).2
      (·.pushCode (backslashes state.cursor.rest).1)) := by
  obtain ⟨n, tail, hrest, ht⟩ := exists_run state.cursor.rest
  have hn : n ≠ 0 := by
    rintro rfl
    exact ht (by simpa [hrest] using h)
  rcases Nat.mod_two_eq_zero_or_one n with hm | hm
  · obtain ⟨k, rfl⟩ : ∃ k, n = 2 * k := ⟨n / 2, by omega⟩
    have hstep := CodeStep.of_plain state (List.replicate (2 * k) '\\') tail hrest
      (by simpa using hn) (by simp [Complete, oddRun_replicate]) (plain_replicate _)
      (fun _ _ => not_dashed_of_getLast? (by simp [List.getLast?_replicate]))
    rw [hrest, backslashes_even k ht]
    simpa using hstep
  · obtain ⟨k, rfl⟩ : ∃ k, n = 2 * k + 1 := ⟨n / 2, by omega⟩
    cases tail with
    | nil =>
      have hlen : (backslashes state.cursor.rest).2 = state.cursor.rest.length := by
        simp [hrest, backslashes]
      rw [hlen]
      exact .half _ (by simp [hrest]) (by rw [hrest, List.append_nil]; exact plain_replicate _)
    | cons c tail =>
      have hc : c ≠ '\\' := by simpa using ht
      have hplain : Plain (List.replicate (2 * k + 1) '\\' ++ [c]) := by
        rw [List.replicate_succ', List.append_assoc]
        exact (plain_replicate _).append (by simp [Complete, oddRun_replicate]) (plain_escaped c)
      have hstep := CodeStep.of_plain state (List.replicate (2 * k + 1) '\\' ++ [c]) tail
        (by simp [hrest]) (by simp) (complete_concat hc _) hplain
        (fun _ _ => by rw [dashed_concat]; simp [oddRun_replicate])
      rw [hrest, backslashes_odd k hc]
      simpa using hstep

/-- A run of code characters is a piece. -/
lemma run_step {state : State} (h : (state.cursor.rest.takeWhile Delimiter.isCode) ≠ []) :
    CodeStep state (.proceed,
      state.write (state.cursor.rest.takeWhile Delimiter.isCode).length
        (·.pushCode (state.cursor.rest.takeWhile Delimiter.isCode))) := by
  set run := state.cursor.rest.takeWhile Delimiter.isCode with hrun
  have hmem : ∀ c ∈ run, c ≠ '\\' ∧ c ≠ '[' ∧ c ≠ ']' ∧ c ≠ '-' := by
    intro c hc
    have := List.mem_takeWhile_imp hc
    simpa [Delimiter.isCode, and_assoc] using this
  have hlast : ∀ c, run.getLast? = some c → c ∈ run := fun c => List.mem_of_getLast?
  have hstep := CodeStep.of_plain state run
    (state.cursor.rest.dropWhile Delimiter.isCode) (List.takeWhile_append_dropWhile).symm h
    (complete_of_getLast? fun k => (hmem _ (hlast _ k)).1 rfl)
    (plain_of_no_bracket fun c hc => ⟨(hmem c hc).2.1, (hmem c hc).2.2.1⟩)
    (fun _ _ => not_dashed_of_getLast? fun k => (hmem _ (hlast _ k)).2.2.2 rfl)
  rwa [unescape_eq_self fun k => (hmem _ k).1 rfl] at hstep

/-- What a step in code mode can be. -/
theorem code_step {state : State} (h : state.cursor.rest ≠ []) :
    CodeStep state (code state) := by
  unfold code
  dsimp only
  split
  · next htrim =>
    simp only [Bool.and_eq_true, decide_eq_true_eq, isPrefixOf_iff] at htrim
    obtain ⟨hdepth, rest, hrest⟩ := htrim
    exact .trimmed rest hrest hdepth
  next htrim =>
  split
  · next hclose =>
    simp only [Bool.and_eq_true, decide_eq_true_eq, isPrefixOf_iff] at hclose
    obtain ⟨hdepth, rest, hrest⟩ := hclose
    exact .closed rest hrest hdepth
  next hclose =>
  unfold codeStep
  dsimp only
  split
  · next hback => exact backslashes_step ((isPrefixOf_singleton _ _).1 hback)
  next hback =>
  split
  · next hopen =>
    obtain ⟨rest, hrest⟩ := (isPrefixOf_iff _ _).1 hopen
    exact .piece ['['] rest _ hrest (by simp) (by decide) (closing?_open _) (by simp)
  next hopen =>
  split
  · next hb =>
    obtain ⟨rest, hrest⟩ := (isPrefixOf_iff _ _).1 hb
    obtain ⟨depth, hdepth⟩ : ∃ depth, state.draft.opened = depth + 1 :=
      Nat.exists_eq_succ_of_ne_zero fun hdepth => hclose (by simp [hdepth, hb])
    have hstep := @CodeStep.piece state [']'] rest depth hrest (by simp) (by decide)
      (fun code => by rw [hdepth]; exact closing?_close_succ depth code) (fun _ _ => rfl)
    simpa [State.write, hdepth, show unescape [']'] = [']'] from rfl] using hstep
  next hb =>
  split
  · next hrun => exact run_step (by simpa using hrun)
  next hrun =>
  split
  · next hdash =>
    obtain ⟨rest, hrest⟩ := (isPrefixOf_iff _ _).1 hdash
    have hstep := CodeStep.of_plain state ['-'] rest hrest (by simp) (by decide)
      (plain_of_no_bracket (by simp)) fun hdepth hhead => by
        refine absurd ?_ htrim
        obtain ⟨more, rfl⟩ := List.head?_eq_some_iff.1 hhead
        simp [hdepth, hrest]
    exact hstep
  · next hdash =>
    exfalso
    have hcode : codeStep state = (.unrecognized, state) := by
      simp [codeStep, hback, hopen, hb, hrun, hdash]
    have := (codeStep_takes h).1
    rw [hcode] at this
    exact this rfl

end Scan

/-! ## A whole region -/

namespace Source

open Grammar Scan

variable (s : Source) (follow : List Char → Position → Draft → Outcome)

/-- A region that ends at once. -/
lemma scanAll_code_end (openedAt : Position) {state : State} {trim : Bool} {count : Nat}
    (h : state.cursor.rest ≠ [])
    (hstep : code state = (.switch .text, state.write count (closeRegion trim))) :
    s.scanAll follow .code openedAt state =
      s.scanAll follow .text openedAt (state.write count (closeRegion trim)) := by
  rw [scanAll_of_ne_nil _ _ _ _ h]
  simp [Mode.scan, hstep, afterStep]

/-- A step inside a region. -/
lemma scanAll_code_proceed (openedAt : Position) {state after : State}
    (h : state.cursor.rest ≠ []) (hstep : code state = (.proceed, after)) :
    s.scanAll follow .code openedAt state = s.scanAll follow .code openedAt after := by
  rw [scanAll_of_ne_nil _ _ _ _ h]
  simp [Mode.scan, hstep, afterStep]

/-- Scanning a region arrives behind the first closing bracket at depth zero, with the content of
the region as its code. -/
theorem scanAll_code_closed (openedAt : Position) (state : State) {place : Nat}
    (h : closing? state.draft.opened state.cursor.rest = some place) :
    s.scanAll follow .code openedAt state =
      s.scanAll follow .text openedAt (state.write (place + 1) fun d =>
        closeRegion (dashed (state.cursor.rest.take place))
          ({ d with opened := 0 }.pushCode (content (state.cursor.rest.take place)))) := by
  induction hlen : state.cursor.rest.length using Nat.strong_induction_on
    generalizing state place with
  | _ n ih =>
    have hne : state.cursor.rest ≠ [] := by
      intro hnil
      simp [hnil] at h
    have hstep := code_step hne
    generalize hcode : code state = result at hstep
    cases hstep with
    | trimmed rest hrest hdepth =>
      have hplace : 1 = place := by
        rw [hdepth, hrest, closing?_dash] at h
        exact Option.some.inj h
      have htake : state.cursor.rest.take place = ['-'] := by rw [hrest, ← hplace]; rfl
      have hcontent : content ['-'] = [] := rfl
      rw [s.scanAll_code_end follow openedAt hne hcode, htake, ← hplace, hcontent]
      simp [State.write, state.draft.setOpened_self hdepth, show dashed ['-'] = true from rfl]
    | closed rest hrest hdepth =>
      have hplace : 0 = place := by
        rw [hdepth, hrest, closing?_close_zero] at h
        exact Option.some.inj h
      have hcontent : content [] = [] := rfl
      rw [s.scanAll_code_end follow openedAt hne hcode, ← hplace, List.take_zero, hcontent]
      simp [State.write, state.draft.setOpened_self hdepth]
    | piece piece rest depth hrest hpiece hcomplete hclosing hdash =>
      rw [hrest, hclosing] at h
      obtain ⟨place, hplace, rfl⟩ := Option.map_eq_some_iff.1 h
      have hrest' : (state.write piece.length fun d =>
          { d with opened := depth }.pushCode (unescape piece)).cursor.rest = rest := by
        simp [hrest]
      have hlt : rest.length < n := by
        rw [← hlen]
        exact length_lt_of_piece hrest hpiece
      have hd : rest.take place = [] → dashed piece = false := by
        intro hnil
        obtain ⟨hzero, hhead⟩ := closing?_at_start hplace hnil
        exact hdash hzero hhead
      have hgo := ih rest.length hlt _ (by rw [hrest', draft_write]; simpa using hplace)
        (by rw [hrest'])
      rw [s.scanAll_code_proceed follow openedAt hne hcode, hgo, write_write, hrest', hrest,
        List.take_length_add_append, dashed_append hcomplete hd, content_append hcomplete hd]
      congr 1
      simp [Draft.pushCode_setOpened, Nat.add_assoc]
    | half code hne hplain =>
      rw [closing?_eq_none.2 fun i => hplain.closesAt _ i] at h
      cases h

/-- Scanning a region that has no closing bracket at depth zero ends with an error that tells where
the region was opened. -/
theorem scanAll_code_unclosed (openedAt : Position) (state : State)
    (h : closing? state.draft.opened state.cursor.rest = none) :
    ∃ draft, s.scanAll follow .code openedAt state =
      (.error (s.errorAt openedAt .unclosed), draft) := by
  induction hlen : state.cursor.rest.length using Nat.strong_induction_on generalizing state with
  | _ n ih =>
    by_cases hne : state.cursor.rest = []
    · exact ⟨state.draft, by rw [scanAll_of_nil _ _ _ _ hne]; simp [finishScan]⟩
    have hstep := code_step hne
    generalize hcode : code state = result at hstep
    cases hstep with
    | trimmed rest hrest hdepth =>
      rw [hdepth, hrest, closing?_dash] at h
      cases h
    | closed rest hrest hdepth =>
      rw [hdepth, hrest, closing?_close_zero] at h
      cases h
    | piece piece rest depth hrest hpiece hcomplete hclosing hdash =>
      rw [hrest, hclosing, Option.map_eq_none_iff] at h
      have hrest' : (state.write piece.length fun d =>
          { d with opened := depth }.pushCode (unescape piece)).cursor.rest = rest := by
        simp [hrest]
      have hlt : rest.length < n := by
        rw [← hlen]
        exact length_lt_of_piece hrest hpiece
      rw [s.scanAll_code_proceed follow openedAt hne hcode]
      exact ih rest.length hlt _ (by rw [hrest', draft_write]; simpa using h) (by rw [hrest'])
    | half code hne hplain =>
      refine ⟨state.draft.pushCode code, ?_⟩
      rw [s.scanAll_code_proceed follow openedAt hne hcode, scanAll_of_nil _ _ _ _ (by simp)]
      simp [finishScan]

end Source

end BracketTemplate
