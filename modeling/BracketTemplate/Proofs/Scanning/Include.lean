import Mathlib
import BracketTemplate.Proofs.Grammar.Written
import BracketTemplate.Proofs.Scanning.Reading

/-!
# The name of an include

An include is a bracket, a marker, padding, a name, padding, a trim mark if there is one, and the
closing bracket.  Where the name ends is a matter of preference: padding is taken as far as it goes
and the name only as far as it must, and when what follows does not fit, the choices are taken back
one after the other, the last one first.  `attempt?` is that search, and `include?_eq_attempt?` says
that `Delimiter.include?`, which looks at the text up to the first closing bracket once, finds the
same.

In the search it is easy to see that a written name comes back: the padding in front stops at the
name, and no shorter name will do, because what is left of the name would have to be padding and a
trim mark (`attempt?_written`).  So a step of scanning delivers the name of an include
(`scan_written`).
-/

namespace BracketTemplate

open Grammar

namespace Delimiter

variable {α β : Type} {p : Char → Bool}

/-! ## Searching -/

/-- Goes on behind a run of characters of a class; the longest run is tried first, none last. -/
def greedy (p : Char → Bool) (goOn : List Char → Option α) : List Char → Option α
  | [] => goOn []
  | c :: rest => if p c then (greedy p goOn rest).or (goOn (c :: rest)) else goOn (c :: rest)

/-- Goes on with a run of one or more characters of a class, and behind it; the shortest run is
tried first. -/
def reluctant (p : Char → Bool) (goOn : List Char → List Char → Option α) : List Char → Option α
  | [] => none
  | c :: rest =>
    if p c then (goOn [c] rest).or (reluctant p (fun run => goOn (c :: run)) rest) else none

/-- Goes on with a trim mark and behind it, and then without one. -/
def optional (goOn : Bool → List Char → Option α) : List Char → Option α
  | '-' :: rest => (goOn true rest).or (goOn false ('-' :: rest))
  | rest => goOn false rest

/-- The text behind a closing bracket. -/
def behindBracket? : List Char → Option (List Char)
  | ']' :: rest => some rest
  | _ => none

/-- What stands behind a name: padding, a trim mark, and the closing bracket. -/
def ending? (text : List Char) : Option (Bool × List Char) :=
  greedy isWhiteSpace
    (optional fun right rest => (behindBracket? rest).map fun rest => (right, rest)) text

/-- A name and its ending. -/
def name? (text : List Char) : Option (List Char × Bool × List Char) :=
  reluctant (· ≠ ']') (fun name rest => (ending? rest).map fun found => (name, found)) text

/-- What stands behind a marker: padding, the name, and its ending. -/
def named? (text : List Char) : Option (List Char × Bool × List Char) :=
  greedy isWhiteSpace name? text

/-- What stands behind an opening bracket and its trim mark: a marker and what it makes of the
rest. -/
def behindMarker? : List Char → Option (List Char × Bool × List Char)
  | marker :: rest => if marker = '<' ∨ marker = '^' then named? rest else none
  | [] => none

/-- An include at the front of a text, by search: whether it trims to its left, its name, whether it
trims to its right, and the text behind it. -/
def attempt? : List Char → Option (Bool × List Char × Bool × List Char)
  | '[' :: rest =>
    optional (fun left rest => (behindMarker? rest).map fun found => (left, found)) rest
  | _ => none

/-! ## What a search finds -/

/-- Where going on behind the whole run succeeds, that is what is found. -/
lemma greedy_of_isSome {goOn : List Char → Option α} {text : List Char}
    (h : (goOn (text.dropWhile p)).isSome = true) :
    greedy p goOn text = goOn (text.dropWhile p) := by
  induction text with
  | nil => rfl
  | cons c rest ih =>
    rw [greedy]
    by_cases hc : p c = true
    · rw [List.dropWhile_cons_of_pos hc] at h ⊢
      rw [if_pos hc, ih h, Option.or_of_isSome h]
    · rw [List.dropWhile_cons_of_neg hc, if_neg hc]

/-- Where going on never succeeds at a character of the class, only the whole run can be right. -/
lemma greedy_of_stops {goOn : List Char → Option α}
    (h : ∀ c rest, p c = true → goOn (c :: rest) = none) (text : List Char) :
    greedy p goOn text = goOn (text.dropWhile p) := by
  induction text with
  | nil => rfl
  | cons c rest ih =>
    rw [greedy]
    by_cases hc : p c = true
    · rw [List.dropWhile_cons_of_pos hc, if_pos hc, ih, h c rest hc, Option.or_none]
    · rw [List.dropWhile_cons_of_neg hc, if_neg hc]

/-- Where going on fails behind the whole run and without its last character succeeds, that is what
is found. -/
lemma greedy_of_last {goOn : List Char → Option α} {run rest : List Char} {c : Char} {found : α}
    (hrun : ∀ d ∈ run, p d = true) (hc : p c = true) (hrest : ∀ d ∈ rest.head?, p d = false)
    (hwhole : goOn rest = none) (hlast : goOn (c :: rest) = some found) :
    greedy p goOn (run ++ c :: rest) = some found := by
  induction run with
  | nil =>
    have hnone : greedy p goOn rest = none := by
      cases rest with
      | nil => exact hwhole
      | cons d rest => rw [greedy, if_neg (by simpa using hrest d rfl), hwhole]
    rw [List.nil_append, greedy, if_pos hc, hnone, Option.none_or, hlast]
  | cons d run ih =>
    rw [List.forall_mem_cons] at hrun
    rw [List.cons_append, greedy, if_pos hrun.1, ih hrun.2, Option.some_or]

/-- Where going on fails everywhere, nothing is found. -/
lemma greedy_eq_none {goOn : List Char → Option α} {text : List Char}
    (h : ∀ rest, rest <:+ text → goOn rest = none) : greedy p goOn text = none := by
  induction text with
  | nil => exact h [] List.suffix_rfl
  | cons c rest ih =>
    rw [greedy, ih fun more hmore => h more (hmore.trans (List.suffix_cons c rest)),
      h _ List.suffix_rfl]
    simp

lemma reluctant_eq_none {goOn : List Char → List Char → Option α} {text : List Char}
    (h : ∀ run rest, rest <:+ text → goOn run rest = none) : reluctant p goOn text = none := by
  induction text generalizing goOn with
  | nil => rfl
  | cons c rest ih =>
    rw [reluctant, h _ _ (List.suffix_cons c rest),
      ih fun run more hmore => h _ more (hmore.trans (List.suffix_cons c rest))]
    simp

/-- A mark is read as one, and nothing else is. -/
lemma optional_eq {goOn : Bool → List Char → Option α}
    (h : ∀ rest, goOn false ('-' :: rest) = none) (text : List Char) :
    optional goOn text = goOn (dash text).1 (dash text).2 := by
  unfold optional
  split
  · rw [h, Option.or_none]
    rfl
  · next hdash =>
    have hnone : dash text = (false, text) :=
      dash_flag false fun hhead => (hdash _) (List.head?_eq_some_iff.1 hhead).choose_spec
    rw [hnone]

/-! ## Behind the name -/

lemma behindBracket?_eq_none {c : Char} (h : c ≠ ']') (rest : List Char) :
    behindBracket? (c :: rest) = none := by
  unfold behindBracket?
  split
  · next hcons => exact absurd (List.cons.inj hcons).1 h
  · rfl

lemma dash_cons {c : Char} (h : c ≠ '-') (rest : List Char) :
    dash (c :: rest) = (false, c :: rest) := by
  have hflag : dash (flag false ++ c :: rest) = (false, c :: rest) :=
    dash_flag false (by simpa using h)
  exact hflag

lemma ne_of_isWhiteSpace {c d : Char} (h : isWhiteSpace c = true) (hd : isWhiteSpace d = false) :
    c ≠ d := by
  rintro rfl
  rw [h] at hd
  cases hd

/-- What stands behind a name is read in one way only. -/
lemma ending?_eq (text : List Char) :
    ending? text = (behindBracket? (dash (text.dropWhile isWhiteSpace)).2).map fun rest =>
      ((dash (text.dropWhile isWhiteSpace)).1, rest) := by
  unfold ending?
  rw [greedy_of_stops fun c rest hc => ?_]
  · exact optional_eq (fun _ => rfl) _
  · rw [optional_eq (fun _ => rfl), dash_cons (ne_of_isWhiteSpace hc (by decide)),
      behindBracket?_eq_none (ne_of_isWhiteSpace hc (by decide))]
    rfl

lemma dropWhile_closed (inner rest : List Char) :
    (inner ++ ']' :: rest).dropWhile isWhiteSpace =
      inner.dropWhile isWhiteSpace ++ ']' :: rest := by
  have hbracket : isWhiteSpace ']' = false := by decide
  rw [List.dropWhile_append]
  split
  · next h => simp [List.isEmpty_iff.1 h, hbracket]
  · rfl

lemma not_mem_dropWhile {c : Char} {text : List Char} (h : c ∉ text) :
    c ∉ text.dropWhile isWhiteSpace := fun hmem => h ((List.dropWhile_suffix _).subset hmem)

/-- What stands before a closing bracket ends a name when it is padding, with a trim mark or
without. -/
lemma ending?_closed {inner : List Char} (h : ']' ∉ inner) (rest : List Char) :
    ending? (inner ++ ']' :: rest) =
      if inner.dropWhile isWhiteSpace = [] then some (false, rest)
      else if inner.dropWhile isWhiteSpace = ['-'] then some (true, rest) else none := by
  have hmem := not_mem_dropWhile h
  rw [ending?_eq, dropWhile_closed]
  generalize inner.dropWhile isWhiteSpace = left at hmem ⊢
  rcases left with _ | ⟨c, more⟩
  · rfl
  rw [List.mem_cons, not_or] at hmem
  by_cases hc : c = '-'
  · subst hc
    rcases more with _ | ⟨d, more⟩
    · rfl
    · rw [List.mem_cons, not_or] at hmem
      simp [dash, behindBracket?_eq_none (Ne.symm hmem.2.1)]
  · simp [dash_cons hc, behindBracket?_eq_none (Ne.symm hmem.1), hc]

/-- Without a closing bracket no name ends. -/
lemma ending?_eq_none {text : List Char} (h : ']' ∉ text) : ending? text = none := by
  have hmem := not_mem_dropWhile h
  have hbehind : ∀ left : List Char, ']' ∉ left → behindBracket? left = none := by
    intro left hleft
    cases left with
    | nil => rfl
    | cons c left => exact behindBracket?_eq_none (by rintro rfl; simp at hleft) left
  rw [ending?_eq]
  generalize text.dropWhile isWhiteSpace = left at hmem ⊢
  rcases left with _ | ⟨c, more⟩
  · rfl
  by_cases hc : c = '-'
  · subst hc
    exact congrArg (Option.map _) (hbehind more fun hin => hmem (List.mem_cons_of_mem _ hin))
  · rw [dash_cons hc, hbehind _ hmem]
    rfl

/-! ## The name -/

/-- The name and the trim mark in a text that starts with a name. -/
def cut (inner : List Char) : List Char × Bool :=
  if inner.getLast? = some '-' && inner ≠ ['-'] then (trimEnd inner.dropLast, true)
  else (trimEnd inner, false)

lemma includeName?_eq (body : List Char) :
    includeName? body =
      if body.dropWhile isWhiteSpace = [] then body.getLast?.map fun c => ([c], false)
      else some (cut (body.dropWhile isWhiteSpace)) := by
  unfold includeName? cut
  split
  · next h => rw [if_pos h]
  · next h =>
    rw [if_neg h]
    split <;> rfl

lemma trimEnd_eq_nil {text : List Char} : trimEnd text = [] ↔ isBlank text = true := by
  rw [trimEnd, List.reverse_eq_nil_iff, List.dropWhile_eq_nil_iff, isBlank, List.all_eq_true]
  simp

lemma dropWhile_eq_nil {text : List Char} :
    text.dropWhile isWhiteSpace = [] ↔ isBlank text = true := by
  rw [List.dropWhile_eq_nil_iff, isBlank, List.all_eq_true]

lemma trimEnd_cons {c : Char} {text : List Char} (h : isBlank text = false) :
    trimEnd (c :: text) = c :: trimEnd text := by
  have hne : (text.reverse.dropWhile isWhiteSpace).isEmpty = false := by
    rw [List.isEmpty_eq_false_iff]
    intro hnil
    rw [trimEnd_eq_nil.1 (congrArg List.reverse hnil)] at h
    cases h
  rw [trimEnd, List.reverse_cons, List.dropWhile_append, if_neg (by simp [hne]),
    List.reverse_append]
  rfl

/-- A character in front of padding is all of the text that is kept. -/
lemma trimEnd_blank {c : Char} {text : List Char} (h : isBlank text = true) :
    trimEnd (c :: text) = trimEnd [c] := by
  have hnil : text.reverse.dropWhile isWhiteSpace = [] :=
    List.reverse_eq_nil_iff.1 (trimEnd_eq_nil.2 h)
  rw [trimEnd, List.reverse_cons, List.dropWhile_append, hnil]
  rfl

lemma trimEnd_singleton {c : Char} (h : trimEnd [c] ≠ []) : trimEnd [c] = [c] := by
  by_cases hc : isWhiteSpace c = true
  · exact absurd (trimEnd_eq_nil.2 (by simpa [isBlank] using hc)) h
  · simp [trimEnd, hc]

lemma cut_concat (front : List Char) (last : Char) :
    cut (front ++ [last]) =
      if last = '-' ∧ front ≠ [] then (trimEnd front, true)
      else (trimEnd (front ++ [last]), false) := by
  by_cases h : last = '-' ∧ front ≠ []
  · obtain ⟨rfl, hne⟩ := h
    simp [cut, hne]
  · rw [if_neg h, cut, if_neg]
    simp only [Bool.and_eq_true, decide_eq_true_eq, List.getLast?_concat, Option.some.injEq]
    rintro ⟨rfl, hne⟩
    exact h ⟨rfl, by rintro rfl; exact hne rfl⟩

/-- A name is one character longer than what is left of it, unless nothing is left but its
ending. -/
lemma cut_cons {c : Char} {inner : List Char} (hend : inner.dropWhile isWhiteSpace ≠ [])
    (hmark : inner.dropWhile isWhiteSpace ≠ ['-']) :
    (cut inner).1 ≠ [] ∧ cut (c :: inner) = (c :: (cut inner).1, (cut inner).2) := by
  have hblank : isBlank inner = false := by
    rw [← Bool.not_eq_true]
    exact fun h => hend (dropWhile_eq_nil.2 h)
  rcases List.eq_nil_or_concat inner with rfl | ⟨init, last, rfl⟩
  · exact absurd rfl hend
  rw [List.concat_eq_append] at hmark hblank ⊢
  by_cases hlast : last = '-'
  · -- the trim mark is taken off, and something is left in front of it
    subst hlast
    have hinit : isBlank init = false := by
      rw [← Bool.not_eq_true]
      intro h
      refine hmark ?_
      rw [List.dropWhile_append, if_pos (by simp [dropWhile_eq_nil.2 h])]
      rfl
    have hne : init ≠ [] := by
      rintro rfl
      cases hinit
    rw [cut_concat, if_pos ⟨rfl, hne⟩, ← List.cons_append, cut_concat,
      if_pos ⟨rfl, List.cons_ne_nil c init⟩, trimEnd_cons hinit]
    exact ⟨fun h => by simp [trimEnd_eq_nil.1 h] at hinit, rfl⟩
  · rw [cut_concat, if_neg (by simp [hlast]), ← List.cons_append, cut_concat,
      if_neg (by simp [hlast]), List.cons_append, trimEnd_cons hblank]
    exact ⟨fun h => by simp [trimEnd_eq_nil.1 h] at hblank, rfl⟩

/-- A character with nothing but padding behind it is a name, unless it is padding itself. -/
lemma cut_blank {c : Char} {inner : List Char} (h : isBlank inner = true)
    (hne : (cut (c :: inner)).1 ≠ []) : cut (c :: inner) = ([c], false) := by
  have hcut : cut (c :: inner) = (trimEnd (c :: inner), false) := by
    rcases List.eq_nil_or_concat inner with rfl | ⟨init, last, rfl⟩
    · simpa using cut_concat [] c
    · rw [List.concat_eq_append] at h ⊢
      have hlast : isWhiteSpace last = true := by
        rw [isBlank_append, Bool.and_eq_true] at h
        simpa [isBlank] using h.2
      rw [← List.cons_append, cut_concat, if_neg]
      rintro ⟨rfl, -⟩
      cases hlast
  rw [hcut, trimEnd_blank h] at hne ⊢
  rw [trimEnd_singleton hne]

/-- So it is with a trim mark behind the padding. -/
lemma cut_marked {c : Char} {inner : List Char} (h : inner.dropWhile isWhiteSpace = ['-'])
    (hne : (cut (c :: inner)).1 ≠ []) : cut (c :: inner) = ([c], true) := by
  obtain ⟨padding, hpadding, rfl⟩ :
      ∃ padding, isBlank padding = true ∧ inner = padding ++ ['-'] := by
    refine ⟨inner.takeWhile isWhiteSpace, ?_, ?_⟩
    · rw [isBlank, List.all_eq_true]
      exact fun d hd => List.mem_takeWhile_imp hd
    · rw [← h, List.takeWhile_append_dropWhile]
  have hcut : cut (c :: (padding ++ ['-'])) = (trimEnd (c :: padding), true) := by
    rw [← List.cons_append, cut_concat, if_pos ⟨rfl, List.cons_ne_nil c padding⟩]
  rw [hcut, trimEnd_blank hpadding] at hne ⊢
  rw [trimEnd_singleton hne]

/-- **The shortest name that will do.** -/
lemma name?_closed {inner : List Char} (hbracket : ']' ∉ inner) (hne : (cut inner).1 ≠ [])
    (rest : List Char) :
    name? (inner ++ ']' :: rest) = some ((cut inner).1, (cut inner).2, rest) := by
  -- what is taken already stands in front of the name
  suffices h : ∀ front : List Char → List Char,
      reluctant (· ≠ ']') (fun run text => (ending? text).map fun found => (front run, found))
        (inner ++ ']' :: rest) = some (front (cut inner).1, (cut inner).2, rest) from h id
  induction inner with
  | nil => exact absurd rfl hne
  | cons c inner ih =>
    intro front
    rw [List.mem_cons, not_or] at hbracket
    rw [List.cons_append, reluctant, if_pos (by simpa using Ne.symm hbracket.1),
      ending?_closed hbracket.2]
    by_cases hend : inner.dropWhile isWhiteSpace = []
    · rw [if_pos hend, cut_blank (dropWhile_eq_nil.1 hend) hne]
      rfl
    by_cases hmark : inner.dropWhile isWhiteSpace = ['-']
    · rw [if_neg hend, if_pos hmark, cut_marked hmark hne]
      rfl
    · obtain ⟨hinner, hcut⟩ := cut_cons (c := c) hend hmark
      rw [if_neg hend, if_neg hmark, hcut]
      exact ih hbracket.2 hinner fun run => front (c :: run)

/-- A text that does not start with padding starts with a name. -/
lemma cut_ne_nil {c : Char} (hc : isWhiteSpace c = false) (inner : List Char) :
    (cut (c :: inner)).1 ≠ [] := by
  have hkept : ∀ front, trimEnd (c :: front) ≠ [] := by
    intro front h
    have hblank := trimEnd_eq_nil.1 h
    rw [isBlank, List.all_cons, hc] at hblank
    cases hblank
  rcases List.eq_nil_or_concat inner with rfl | ⟨init, last, rfl⟩
  · have hcut := cut_concat [] c
    rw [if_neg (by simp)] at hcut
    rw [← List.nil_append [c], hcut]
    exact hkept []
  · rw [List.concat_eq_append, ← List.cons_append, cut_concat]
    split
    · exact hkept init
    · exact hkept (init ++ [last])

/-- **The name and its ending** in what stands before the first closing bracket. -/
lemma named?_closed {body : List Char} (hbracket : ']' ∉ body) (rest : List Char) :
    named? (body ++ ']' :: rest) =
      (includeName? body).map fun (name, right) => (name, right, rest) := by
  have hstop : name? (']' :: rest) = none := rfl
  rw [includeName?_eq, named?]
  rcases hinner : body.dropWhile isWhiteSpace with _ | ⟨c, inner⟩
  · -- nothing but padding: its last character has to be the name
    rw [if_pos rfl]
    have hblank := dropWhile_eq_nil.1 hinner
    rcases List.eq_nil_or_concat body with rfl | ⟨init, last, rfl⟩
    · exact hstop
    rw [List.concat_eq_append] at hbracket hblank ⊢
    rw [isBlank_append, Bool.and_eq_true] at hblank
    have hlast : isWhiteSpace last = true := by simpa [isBlank] using hblank.2
    have hfound : name? (last :: ']' :: rest) = some ([last], false, rest) := by
      have hne : last ≠ ']' := ne_of_isWhiteSpace hlast (by decide)
      rw [name?, reluctant, if_pos (by simpa using hne)]
      rfl
    rw [List.append_assoc, List.singleton_append,
      greedy_of_last (List.all_eq_true.1 hblank.1) hlast (by simp; decide) hstop hfound]
    simp
  · rw [if_neg (List.cons_ne_nil c inner)]
    have hc : isWhiteSpace c = false := by
      have := List.head?_dropWhile_not isWhiteSpace body
      rw [hinner] at this
      simpa using this
    have hmem : ']' ∉ c :: inner := hinner ▸ not_mem_dropWhile hbracket
    have hfound := name?_closed hmem (cut_ne_nil hc inner) rest
    have hdrop := dropWhile_closed body rest
    rw [hinner] at hdrop
    rw [greedy_of_isSome (by rw [hdrop, hfound]; rfl), hdrop, hfound]
    rfl

lemma named?_eq_none {text : List Char} (h : ']' ∉ text) : named? text = none :=
  greedy_eq_none fun rest hrest => reluctant_eq_none fun run more hmore => by
    rw [ending?_eq_none fun hmem => h (hrest.subset (hmore.subset hmem))]
    rfl

lemma length_dash (text : List Char) :
    (dash text).1.toNat + (dash text).2.length = text.length := by
  unfold dash
  split
  · simp [Nat.add_comm]
  · simp

/-- **An include is what the search finds.** -/
theorem include?_eq_attempt? (text : List Char) :
    include? text = (attempt? text).map fun (left, name, right, behind) =>
      ⟨left, name, right, text.length - behind.length⟩ := by
  rcases text with _ | ⟨c, rest⟩
  · rfl
  by_cases hc : c = '['
  swap
  · rw [include?_eq_none (by simpa using hc)]
    unfold attempt?
    split
    · next h => exact absurd (List.cons.inj h).1 hc
    · rfl
  subst hc
  have hattempt : attempt? ('[' :: rest) =
      (behindMarker? (dash rest).2).map fun found => ((dash rest).1, found) := by
    rw [attempt?, optional_eq fun _ => rfl]
  have hlength := length_dash rest
  rcases hdash : dash rest with ⟨left, more⟩
  rw [hdash] at hattempt hlength
  rw [hattempt]
  simp only [include?, hdash]
  rcases more with _ | ⟨marker, more⟩
  · rfl
  dsimp only [behindMarker?] at hlength ⊢
  by_cases hmarker : marker = '<' ∨ marker = '^'
  swap
  · rw [if_neg hmarker, if_neg (by simpa using hmarker)]
    rfl
  rw [if_pos hmarker, if_pos (by simpa using hmarker)]
  by_cases hmem : ']' ∈ more
  · obtain ⟨body, behind, rfl, hbody⟩ := List.eq_append_cons_of_mem hmem
    have htake : (body ++ ']' :: behind).takeWhile (· ≠ ']') = body := by
      rw [takeWhile_stop rfl, List.takeWhile_eq_self_iff]
      rintro c hc
      simpa using ne_of_mem_of_not_mem hc hbody
    rw [htake, named?_closed hbody, if_neg (by simp)]
    have hcount : left.toNat + body.length + 3 = ('[' :: rest).length - behind.length := by
      simp only [List.length_cons, List.length_append] at hlength ⊢
      omega
    rw [hcount]
    cases includeName? body <;> rfl
  · have htake : more.takeWhile (· ≠ ']') = more := by
      rw [List.takeWhile_eq_self_iff]
      rintro c hc
      simpa using ne_of_mem_of_not_mem hc hmem
    rw [htake, named?_eq_none hmem, if_pos rfl]
    rfl

/-! ## Written includes -/

/-- What can be written as the name of an include, with padding around it. -/
structure IsName (name : List Char) : Prop where
  ne_nil : name ≠ []
  no_bracket : ']' ∉ name
  start : ∀ c ∈ name.head?, isWhiteSpace c = false
  stop : ∀ c ∈ name.getLast?, isWhiteSpace c = false ∧ c ≠ '-'

/-- An include as it is written, with padding before and behind its name. -/
def written (left : Bool) (marker : Char) (before name behind : List Char) (right : Bool) :
    List Char :=
  '[' :: (flag left ++ marker :: (before ++ (name ++ (behind ++ (flag right ++ [']'])))))

lemma dropWhile_blank {padding : List Char} (h : isBlank padding = true) (rest : List Char) :
    (padding ++ rest).dropWhile isWhiteSpace = rest.dropWhile isWhiteSpace := by
  rw [List.dropWhile_append, if_pos (by simp [dropWhile_eq_nil.2 h])]

/-- What is left of a name is no ending: its last character is neither padding nor a trim mark. -/
lemma not_ending {name : List Char} (hne : name ≠ [])
    (hstop : ∀ c ∈ name.getLast?, isWhiteSpace c = false ∧ c ≠ '-') (tail : List Char) :
    (name ++ tail).dropWhile isWhiteSpace ≠ [] ∧ (name ++ tail).dropWhile isWhiteSpace ≠ ['-'] := by
  obtain ⟨init, last, rfl⟩ := (List.eq_nil_or_concat name).resolve_left hne
  rw [List.concat_eq_append] at hstop ⊢
  obtain ⟨hspace, hdash⟩ := hstop last (by simp)
  have hmem : last ∈ (init ++ [last]).dropWhile isWhiteSpace := by
    rw [List.dropWhile_append]
    split <;> simp [hspace]
  have hkept : (init ++ [last] ++ tail).dropWhile isWhiteSpace =
      (init ++ [last]).dropWhile isWhiteSpace ++ tail := by
    rw [List.dropWhile_append, if_neg]
    intro h
    rw [List.isEmpty_iff.1 h] at hmem
    cases hmem
  rw [hkept]
  refine ⟨fun h => ?_, fun h => ?_⟩
  · rw [(List.append_eq_nil_iff.1 h).1] at hmem
    cases hmem
  · exact hdash (List.mem_singleton.1 (h ▸ List.mem_append_left tail hmem))

/-- **A written name is the shortest that will do.** -/
lemma name?_written {name behind : List Char} (hne : name ≠ []) (hbracket : ']' ∉ name)
    (hstop : ∀ c ∈ name.getLast?, isWhiteSpace c = false ∧ c ≠ '-')
    (hbehind : isBlank behind = true)
    (right : Bool) (rest : List Char) :
    name? (name ++ (behind ++ (flag right ++ ']' :: rest))) = some (name, right, rest) := by
  suffices h : ∀ front : List Char → List Char,
      reluctant (· ≠ ']') (fun run text => (ending? text).map fun found => (front run, found))
        (name ++ (behind ++ (flag right ++ ']' :: rest))) = some (front name, right, rest) from h id
  have htail : ']' ∉ behind ++ flag right := by
    rw [List.mem_append, not_or]
    refine ⟨fun hmem => ?_, by cases right <;> decide⟩
    have hspace := List.all_eq_true.1 hbehind _ hmem
    revert hspace
    decide
  induction name with
  | nil => exact absurd rfl hne
  | cons c name ih =>
    intro front
    rw [List.mem_cons, not_or] at hbracket
    have hmem : ']' ∉ name ++ (behind ++ flag right) := by
      rw [List.mem_append, not_or]
      exact ⟨hbracket.2, htail⟩
    have hsplit : name ++ (behind ++ (flag right ++ ']' :: rest)) =
        name ++ (behind ++ flag right) ++ ']' :: rest := by simp
    rw [List.cons_append, reluctant, if_pos (by simpa using Ne.symm hbracket.1), hsplit,
      ending?_closed hmem]
    rcases name with _ | ⟨d, name⟩
    · rw [List.nil_append, dropWhile_blank hbehind]
      cases right <;> rfl
    · have hlast : ∀ e ∈ (d :: name).getLast?, isWhiteSpace e = false ∧ e ≠ '-' := by
        simpa using hstop
      obtain ⟨hend, hmark⟩ := not_ending (List.cons_ne_nil d name) hlast (behind ++ flag right)
      rw [if_neg hend, if_neg hmark, ← hsplit]
      exact ih (List.cons_ne_nil d name) hbracket.2 hlast fun run => front (c :: run)

/-- **A written include is found**, with its name and its marks. -/
theorem attempt?_written {name : List Char} (hname : IsName name) {marker : Char}
    (hmarker : marker = '<' ∨ marker = '^') {before behind : List Char}
    (hbefore : isBlank before = true) (hbehind : isBlank behind = true) (left right : Bool)
    (rest : List Char) :
    attempt? (written left marker before name behind right ++ rest) =
      some (left, name, right, rest) := by
  obtain ⟨hne, hbracket, hstart, hstop⟩ := hname
  have hfound := name?_written hne hbracket hstop hbehind right rest
  have hdrop :
      (before ++ (name ++ (behind ++ (flag right ++ ']' :: rest)))).dropWhile isWhiteSpace =
      name ++ (behind ++ (flag right ++ ']' :: rest)) := by
    obtain ⟨c, more, rfl⟩ := List.exists_cons_of_ne_nil hne
    rw [dropWhile_blank hbefore, List.cons_append, List.dropWhile_cons_of_neg]
    simpa using hstart c rfl
  have hnamed : named? (before ++ (name ++ (behind ++ (flag right ++ ']' :: rest)))) =
      some (name, right, rest) := by
    rw [named?, greedy_of_isSome (by rw [hdrop, hfound]; rfl), hdrop, hfound]
  have hdash : marker ≠ '-' := by
    rintro rfl
    revert hmarker
    decide
  have hsplit : written left marker before name behind right ++ rest =
      '[' ::
        (flag left ++ marker :: (before ++ (name ++ (behind ++ (flag right ++ ']' :: rest))))) := by
    simp [written]
  rw [hsplit, attempt?, optional_eq (fun _ => rfl), dash_flag left (by simpa using hdash)]
  dsimp only [behindMarker?]
  rw [if_pos hmarker, hnamed]
  rfl

end Delimiter

/-! ## Scanning includes -/

namespace Draft

/-- A text is another one with blanks and tabs behind it, as many as there are. -/
structure LosesBlanks (text kept : List Char) : Prop where
  split : ∃ blanks, text = kept ++ blanks ∧ ∀ c ∈ blanks, c = ' ' ∨ c = '\t'
  stop : ∀ c ∈ kept.getLast?, c ≠ ' ' ∧ c ≠ '\t'

lemma losesBlanks (text : List Char) : LosesBlanks text (dropBlanks text) := by
  have hsplit : dropBlanks text ++ (text.reverse.takeWhile fun c => c = ' ' || c = '\t').reverse =
      text := by
    rw [dropBlanks, ← List.reverse_append, List.takeWhile_append_dropWhile, List.reverse_reverse]
  refine ⟨⟨_, hsplit.symm, fun c hc => ?_⟩, fun c hc => ?_⟩
  · simpa using List.mem_takeWhile_imp (List.mem_reverse.1 hc)
  · rw [dropBlanks, List.getLast?_reverse] at hc
    have hnot := List.head?_dropWhile_not (fun c => c = ' ' || c = '\t') text.reverse
    rw [hc] at hnot
    simpa using hnot

end Draft

namespace Mode

open Scan

/-- Before an opening bracket there is no line end to drop. -/
lemma text_open {state : State} {rest : List Char} (h : state.cursor.rest = '[' :: rest) :
    Scan.text state = textStep ⟨state.cursor, state.draft.calm⟩ := by
  unfold Scan.text
  split
  · have hline : Delimiter.lineEnd? state.cursor.rest = none :=
      lineEnd?_eq_none (by rw [h]; rintro c ⟨⟩; decide)
    have hmore : state.cursor.atEnd = false := by
      rw [Cursor.atEnd, h]
      rfl
    simp only [hline, Option.getD_none, Cursor.advance_zero, hmore]
    rfl
  · next hskip =>
    rw [Source.calm_of_skipNewline (by simpa using hskip)]

/-- **Include delimiters deliver exactly the written name.**  In text mode a step at a written
include takes it and nothing else, whatever follows, and tells the name and whether the delimiter
trims to its right.  The pending text loses the blanks and tabs it ends in when the delimiter trims
to its left, and stays as it is otherwise; nothing else of the draft changes, but that no line end
is left to drop. -/
theorem scan_written {state : State} {left right : Bool} {marker : Char}
    {before name behind following : List Char} (hname : Delimiter.IsName name)
    (hmarker : marker = '<' ∨ marker = '^') (hbefore : isBlank before = true)
    (hbehind : isBlank behind = true)
    (hrest : state.cursor.rest =
      Delimiter.written left marker before name behind right ++ following) :
    ∃ cursor pending, Mode.text.scan state =
        (.includes name right, ⟨cursor, { state.draft with skipNewline := false, pending }⟩) ∧
      cursor =
        state.cursor.advance (Delimiter.written left marker before name behind right).length ∧
      cursor.rest = following ∧
      (left = true → Draft.LosesBlanks state.draft.pending pending) ∧
      (left = false → pending = state.draft.pending) := by
  have hinclude : Delimiter.include? state.cursor.rest = some ⟨left, name, right,
      (Delimiter.written left marker before name behind right).length⟩ := by
    rw [Delimiter.include?_eq_attempt?, hrest,
      Delimiter.attempt?_written hname hmarker hbefore hbehind]
    simp
  have hstep : Mode.text.scan state = (.includes name right,
      ⟨state.cursor.advance (Delimiter.written left marker before name behind right).length,
        state.draft.calm.trimIf left⟩) := by
    have hcalm : (⟨state.cursor, state.draft.calm⟩ : State).cursor.rest = '[' :: _ := hrest
    rw [Mode.scan, text_open hrest, textStep_open hcalm, hinclude]
    rfl
  refine ⟨_, (state.draft.calm.trimIf left).pending, ?_, rfl, by simp [hrest], fun h => ?_,
    fun h => ?_⟩
  · rw [hstep]
    cases left <;> rfl
  · subst h
    exact Draft.losesBlanks _
  · subst h
    rfl

/-- A name with a bracket, a backslash, dashes and a line end in it. -/
def oddName : List Char := ['a', '[', '-', '\\', '\n', ' ', '-', 'c']

/-- A written include with that name, behind a line end to drop and blanks. -/
def oddState : State where
  cursor :=
    .start (Delimiter.written true '^' " \t ".toList oddName "\n".toList true ++ "-]".toList)
  draft := { (default : Draft) with skipNewline := true, pending := "x\n\t ".toList }

/-- The name comes back without the padding and the trim marks around it. -/
theorem scan_written_odd :
    oddState.cursor.rest = "[-^ \t a[-\\\n -c\n-]-]".toList ∧
      ∃ cursor pending, Mode.text.scan oddState = (.includes oddName true,
          ⟨cursor, { oddState.draft with skipNewline := false, pending }⟩) ∧
        cursor.rest = "-]".toList ∧ Draft.LosesBlanks "x\n\t ".toList pending := by
  have hname : Delimiter.IsName oddName :=
    ⟨by decide, by decide, by rintro c ⟨⟩; decide, by rintro c ⟨⟩; decide⟩
  have hwritten : oddState.cursor.rest =
      Delimiter.written true '^' " \t ".toList oddName "\n".toList true ++ "-]".toList := rfl
  obtain ⟨cursor, pending, hscan, -, hrest, hleft, -⟩ :=
    scan_written hname (.inr rfl) (by decide) (by decide) hwritten
  exact ⟨by decide, cursor, pending, hscan, hrest, hleft rfl⟩

end Mode

end BracketTemplate
