import Mathlib
import BracketTemplate.Proofs.Grammar.Closing

/-!
# Printing segments

Segments can be written down again: a text with a backslash before each bracket, a region between
its brackets with its marks, its code with each backslash doubled and a backslash before each
bracket.  `segments_print` is the round trip: what has been printed is read as what it was printed
from.

Not every list of segments can be printed.  `Segment.printable` says what a single one must not be,
and `Segment.fits` what must not stand side by side: two texts would be read as one, and a text that
ends in a backslash would take the bracket behind it away from a region.  Nothing more is asked, and
nothing at all of what stands further off.
-/

namespace BracketTemplate

namespace Region

/-- The character that tells a kind of region; statements have none. -/
def marker : Region → List Char
  | statement => []
  | escaped => ['=']
  | raw => ['!']
  | comment => ['#']
  | staticInclude => ['<']

/-- Whether a code can stand right behind the marks of a region: a statement is not empty and starts
with nothing that could be a mark, and the code of a print region does not start with white
space. -/
def mayStart : Region → List Char → Bool
  | statement, code => code.head?.any fun c => decide (c ∉ ['-', '=', '!', '#', '<', '^'])
  | escaped, code | raw, code => code.head?.all fun c => !isWhiteSpace c
  | comment, _ => true
  | staticInclude, _ => false

/-- The code that is read back for a printed one: white space behind a marker belongs to the
marker. -/
def readBack (kind : Region) (code : List Char) : List Char :=
  if kind.marker = [] then code else code.dropWhile isWhiteSpace

end Region

namespace Grammar

/-! ## Text -/

/-- A character of a text as it is written. -/
def writeTextChar (c : Char) : List Char := if c = '[' ∨ c = ']' then ['\\', c] else [c]

/-- A text as it is written: a backslash stands before each bracket. -/
def writeText (text : List Char) : List Char := text.flatMap writeTextChar

@[simp] lemma writeText_nil : writeText [] = [] := rfl

lemma writeText_cons (c : Char) (text : List Char) :
    writeText (c :: text) = writeTextChar c ++ writeText text := rfl

lemma head?_writeText {text : List Char} (h : text ≠ []) (rest : List Char) :
    (writeText text ++ rest).head? ≠ some '[' ∧ (writeText text ++ rest).head? ≠ some ']' := by
  obtain ⟨c, text, rfl⟩ := List.exists_cons_of_ne_nil h
  rw [writeText_cons, writeTextChar]
  split
  · simp
  · next hc =>
    rw [not_or] at hc
    simpa using hc

/-- A written text is read up to what follows it: the end, or a bracket that no backslash of the
text takes away. -/
theorem literal_writeText {text rest : List Char} (hrest : rest = [] ∨ rest.head? = some '[')
    (hlast : rest ≠ [] → text.getLast? ≠ some '\\') :
    literal (writeText text ++ rest) = (text, (writeText text).length) := by
  induction text with
  | nil =>
    rcases hrest with rfl | hopen
    · rfl
    · obtain ⟨more, rfl⟩ := List.head?_eq_some_iff.1 hopen
      rfl
  | cons c text ih =>
    have ih := ih fun hne => by
      have := hlast hne
      cases text with
      | nil => simp
      | cons d text => simpa using this
    rw [writeText_cons, writeTextChar]
    split
    · next hc =>
      rcases hc with rfl | rfl <;> simp [literal, ih]
    · next hc =>
      have hopen : c ≠ '[' := fun h => hc (.inl h)
      have hnext : c = '\\' → (writeText text ++ rest).head? ≠ some '[' ∧
          (writeText text ++ rest).head? ≠ some ']' := by
        rintro rfl
        by_cases htext : text = []
        · subst htext
          have hend : rest = [] := by
            by_contra hne
            exact hlast hne rfl
          simp [hend]
        · exact head?_writeText htext rest
      rw [List.singleton_append, List.cons_append, literal_cons hopen hnext, ih]
      rfl

/-- A written text is read as that text, if there is any, and what follows it is read as before. -/
lemma segments_writeText {text rest : List Char} (hrest : rest = [] ∨ rest.head? = some '[')
    (hlast : rest ≠ [] → text.getLast? ≠ some '\\') :
    segments (writeText text ++ rest) =
      (if text = [] then [] else [.literal text]) ++ segments rest := by
  by_cases htext : text = []
  · rw [htext, if_pos rfl]
    rfl
  have hread := literal_writeText hrest hlast
  have hne : writeText text ++ rest ≠ [] := by
    intro hnil
    rw [hnil] at hread
    exact htext (congrArg Prod.fst hread).symm
  rw [segments_literal hne (head?_writeText htext rest).1, hread, if_neg htext]
  simp only [List.drop_left]
  rfl

/-! ## Code -/

/-- A character of a code as it is written. -/
def writeCodeChar (c : Char) : List Char :=
  if c = '\\' ∨ c = '[' ∨ c = ']' then ['\\', c] else [c]

/-- A code as it is written: a backslash stands before each backslash and each bracket. -/
def writeCode (code : List Char) : List Char := code.flatMap writeCodeChar

@[simp] lemma writeCode_nil : writeCode [] = [] := rfl

lemma writeCode_cons (c : Char) (code : List Char) :
    writeCode (c :: code) = writeCodeChar c ++ writeCode code := rfl

lemma complete_writeCodeChar (c : Char) : Complete (writeCodeChar c) := by
  unfold writeCodeChar
  split
  · next hc => rcases hc with rfl | rfl | rfl <;> decide
  · next hc =>
    rw [not_or] at hc
    exact complete_singleton hc.1

lemma plain_writeCodeChar (c : Char) : Plain (writeCodeChar c) := by
  unfold writeCodeChar
  split
  · exact plain_escaped c
  · next hc => exact plain_of_no_bracket (by simp_all)

lemma unescape_writeCodeChar (c : Char) : unescape (writeCodeChar c) = [c] := by
  unfold writeCodeChar
  split
  · next hc => rcases hc with rfl | rfl | rfl <;> rfl
  · next hc =>
    rw [not_or] at hc
    rw [unescape_cons hc.1, unescape_nil]

lemma complete_writeCode (code : List Char) : Complete (writeCode code) := by
  induction code with
  | nil => rfl
  | cons c code ih => exact (complete_writeCodeChar c).append ih

lemma plain_writeCode (code : List Char) : Plain (writeCode code) := by
  induction code with
  | nil => exact plain_nil
  | cons c code ih => exact (plain_writeCodeChar c).append (complete_writeCodeChar c) ih

/-- A written code stands for the code it was written from. -/
theorem unescape_writeCode (code : List Char) : unescape (writeCode code) = code := by
  induction code with
  | nil => rfl
  | cons c code ih =>
    rw [writeCode_cons, unescape_append (complete_writeCodeChar c), unescape_writeCodeChar, ih]
    rfl

lemma getLast?_writeCode (code : List Char) : (writeCode code).getLast? = code.getLast? := by
  induction code using List.reverseRecOn with
  | nil => rfl
  | append_singleton code c =>
    have hwrite : writeCode (code ++ [c]) = writeCode code ++ writeCodeChar c := by
      simp [writeCode]
    rw [hwrite, writeCodeChar]
    split <;> simp

/-- White space is written as it is, so it can be dropped before or after. -/
lemma dropWhile_writeCode (code : List Char) {rest : List Char}
    (h : ∀ c ∈ rest.head?, isWhiteSpace c = false) :
    (writeCode code ++ rest).dropWhile isWhiteSpace =
      writeCode (code.dropWhile isWhiteSpace) ++ rest := by
  induction code with
  | nil =>
    cases rest with
    | nil => rfl
    | cons c rest => simp [h c rfl]
  | cons c code ih =>
    by_cases hspace : isWhiteSpace c = true
    · have hwrite : writeCodeChar c = [c] := by
        refine if_neg ?_
        rintro (rfl | rfl | rfl) <;> exact absurd hspace (by decide)
      simpa [writeCode_cons, hwrite, hspace] using ih
    · have hhead : ∃ d more, writeCodeChar c = d :: more ∧ isWhiteSpace d = false := by
        unfold writeCodeChar
        split
        · exact ⟨_, _, rfl, by decide⟩
        · exact ⟨_, _, rfl, by simpa using hspace⟩
      obtain ⟨d, more, hwrite, hd⟩ := hhead
      simp [writeCode_cons, hwrite, hspace, hd]

/-! ## Regions -/

/-- A trim mark, if there is one. -/
def flag (trim : Bool) : List Char := if trim then ['-'] else []

lemma dash_flag (trim : Bool) {rest : List Char} (h : rest.head? ≠ some '-') :
    Delimiter.dash (flag trim ++ rest) = (trim, rest) := by
  cases trim with
  | true => rfl
  | false =>
    change Delimiter.dash rest = _
    unfold Delimiter.dash
    split
    · exact absurd rfl h
    · rfl

/-- What stands between the brackets of a region behind its marker. -/
def inside (code : List Char) (right : Bool) : List Char := writeCode code ++ flag right

lemma closing?_inside (code : List Char) (right : Bool) (rest : List Char) :
    closing? 0 (inside code right ++ ']' :: rest) = some (inside code right).length := by
  have hflag : Plain (flag right) ∧ Complete (flag right) := by
    cases right
    · exact ⟨plain_nil, rfl⟩
    · exact ⟨plain_of_no_bracket (by simp [flag]), by decide⟩
  have hcomplete : Complete (inside code right) := (complete_writeCode code).append hflag.2
  have hplain : Plain (inside code right) :=
    (plain_writeCode code).append (complete_writeCode code) hflag.1
  rw [closing?_plain hplain hcomplete, closing?_close_zero]
  rfl

lemma dashed_inside {code : List Char} (h : code.getLast? ≠ some '-') (right : Bool) :
    dashed (inside code right) = right := by
  cases right with
  | true =>
    have hcomplete : oddRun (writeCode code) = false := complete_writeCode code
    exact (dashed_concat _ _).trans (by simp [hcomplete])
  | false =>
    have hlast : (inside code false).getLast? ≠ some '-' := by
      simpa [inside, flag, getLast?_writeCode] using h
    exact not_dashed_of_getLast? hlast

lemma content_inside {code : List Char} (h : code.getLast? ≠ some '-') (right : Bool) :
    content (inside code right) = code := by
  rw [content, dashed_inside h]
  cases right <;> simp [inside, flag, unescape_writeCode]

lemma head?_writeCode {code : List Char} {c : Char} (h : code.head? = some c) (rest : List Char) :
    (writeCode code ++ rest).head? = some c ∨ (writeCode code ++ rest).head? = some '\\' := by
  obtain ⟨code, rfl⟩ := List.head?_eq_some_iff.1 h
  rw [writeCode_cons, writeCodeChar]
  split
  · exact .inr rfl
  · exact .inl rfl

/-- A bracket and its marks in front of a text open a region of a kind, and a body is left to
read. -/
def Opens (text : List Char) (kind : Region) (left : Bool) (body : List Char) : Prop :=
  ∃ opening : Delimiter.Opening, opening.region = kind ∧ opening.trim = left ∧
    Delimiter.include? text = none ∧ opening? text = some opening ∧
      text.drop opening.length = body

/-- A marker opens its region, and takes the white space behind it. -/
lemma opens_marked {m : Char} {kind : Region} (h : Delimiter.markerRegion? m = some kind)
    (left : Bool) (body : List Char) :
    Opens ('[' :: (flag left ++ m :: body)) kind left (body.dropWhile isWhiteSpace) := by
  have hm : m ≠ '-' ∧ m ≠ '<' ∧ m ≠ '^' := by
    refine ⟨?_, ?_, ?_⟩ <;> rintro rfl <;> cases h
  have hdash := dash_flag left (show (m :: body).head? ≠ some '-' by simpa using hm.1)
  refine ⟨⟨left, kind, left.toNat + (body.takeWhile isWhiteSpace).length + 2⟩, rfl, rfl, ?_, ?_, ?_⟩
  · simp [Delimiter.include?, hdash, hm.2]
  · simp [opening?, Delimiter.marked?, hdash, h]
  · have hdrop : body.drop (body.takeWhile isWhiteSpace).length = body.dropWhile isWhiteSpace := by
      have hsplit : body.takeWhile isWhiteSpace ++ body.dropWhile isWhiteSpace = body :=
        List.takeWhile_append_dropWhile
      calc body.drop (body.takeWhile isWhiteSpace).length
          = (body.takeWhile isWhiteSpace ++ body.dropWhile isWhiteSpace).drop
              (body.takeWhile isWhiteSpace).length := by rw [hsplit]
        _ = body.dropWhile isWhiteSpace := List.drop_left
    cases left
    · simpa [flag] using hdrop
    · simpa [flag, Nat.add_comm 1] using hdrop

/-- A bracket alone opens a statement when what follows is no mark. -/
lemma opens_statement {c : Char} {body : List Char} (h : body.head? = some c)
    (hc : c ∉ ['-', '=', '!', '#', '<', '^']) (left : Bool) :
    Opens ('[' :: (flag left ++ body)) .statement left body := by
  simp only [List.mem_cons, List.not_mem_nil, or_false, not_or] at hc
  obtain ⟨hminus, hescaped, hraw, hcomment, hless, hcaret⟩ := hc
  obtain ⟨body, rfl⟩ := List.head?_eq_some_iff.1 h
  have hdash := dash_flag left (show (c :: body).head? ≠ some '-' by simpa using hminus)
  have hmarker : Delimiter.markerRegion? c = none := by
    simp [Delimiter.markerRegion?, hescaped, hraw, hcomment]
  refine ⟨⟨left, .statement, left.toNat + 1⟩, rfl, rfl, ?_, ?_, ?_⟩
  · simp [Delimiter.include?, hdash, hless, hcaret]
  · simp [opening?, Delimiter.marked?, Delimiter.open?, hdash, hmarker]
  · cases left <;> rfl

/-- The marks of a printed region open it, and its code is left to read. -/
lemma opens_print {kind : Region} {code : List Char} (h : kind.mayStart code = true)
    (left right : Bool) (rest : List Char) :
    Opens ('[' :: (flag left ++ (kind.marker ++ (inside code right ++ ']' :: rest)))) kind left
      (inside (kind.readBack code) right ++ ']' :: rest) := by
  have hmarked : ∀ m, Delimiter.markerRegion? m = some kind → kind.marker = [m] →
      Opens ('[' :: (flag left ++ (kind.marker ++ (inside code right ++ ']' :: rest)))) kind left
        (inside (kind.readBack code) right ++ ']' :: rest) := by
    intro m hm hmarker
    have hflag : ∀ c ∈ (flag right ++ ']' :: rest).head?, isWhiteSpace c = false := by
      cases right <;> simp [flag] <;> decide
    have hspace : (inside code right ++ ']' :: rest).dropWhile isWhiteSpace =
        inside (kind.readBack code) right ++ ']' :: rest := by
      simpa [inside, Region.readBack, hmarker] using dropWhile_writeCode code hflag
    rw [hmarker, ← hspace]
    exact opens_marked hm left _
  cases kind with
  | escaped => exact hmarked '=' rfl rfl
  | raw => exact hmarked '!' rfl rfl
  | comment => exact hmarked '#' rfl rfl
  | staticInclude => cases h
  | statement =>
    obtain ⟨c, hhead, hc⟩ : ∃ c, code.head? = some c ∧ c ∉ ['-', '=', '!', '#', '<', '^'] := by
      simpa only [Region.mayStart, Option.any_eq_true, decide_eq_true_eq] using h
    rcases head?_writeCode hhead (flag right ++ ']' :: rest) with hfirst | hfirst <;>
      rw [← List.append_assoc] at hfirst
    · exact opens_statement hfirst hc left
    · exact opens_statement hfirst (by decide) left

lemma getLast?_readBack {kind : Region} {code : List Char} (h : code.getLast? ≠ some '-') :
    (kind.readBack code).getLast? ≠ some '-' := by
  unfold Region.readBack
  split
  · exact h
  · intro hdash
    refine h ?_
    rw [← List.takeWhile_append_dropWhile (p := isWhiteSpace) (l := code), List.getLast?_append,
      hdash]
    rfl

/-- Only the code of a comment can lose white space. -/
lemma readBack_eq_self {kind : Region} {code : List Char} (h : kind.mayStart code = true)
    (hkind : kind ≠ .comment) : kind.readBack code = code := by
  have hspace : (∀ c ∈ code.head?, isWhiteSpace c = false) →
      code.dropWhile isWhiteSpace = code := by
    intro hhead
    cases code with
    | nil => rfl
    | cons c code => simp [hhead c rfl]
  cases kind with
  | statement => rfl
  | escaped | raw => exact hspace (by simpa [Region.mayStart, Option.all_eq_true] using h)
  | comment => exact absurd rfl hkind
  | staticInclude => cases h

/-! ## Lists of segments -/

/-- A segment as it is written. -/
def Segment.print : Segment → List Char
  | literal text => writeText text
  | region kind left code right =>
    '[' :: (flag left ++ (kind.marker ++ (inside code right ++ [']'])))
  | inclusion left name right => '[' :: (flag left ++ '<' :: (name ++ (flag right ++ [']'])))
  | unclosed => ['[']

/-- Whether a segment is read back from what is written for it: a text is not empty, a code can
stand behind its marks and does not end in a dash. -/
def Segment.printable : Segment → Bool
  | literal text => !text.isEmpty
  | region kind _ code _ => kind.mayStart code && decide (code.getLast? ≠ some '-')
  | inclusion .. | unclosed => false

/-- Whether two segments can stand side by side: two texts would be one, and a backslash at the end
of a text would take the bracket behind it. -/
def Segment.fits : Segment → Segment → Bool
  | literal _, literal _ => false
  | literal text, _ => decide (text.getLast? ≠ some '\\')
  | _, _ => true

/-- A segment as it is read back. -/
def Segment.readBack : Segment → Segment
  | region kind left code right => region kind left (kind.readBack code) right
  | other => other

lemma segments_print_region {kind : Region} {code : List Char} (hstart : kind.mayStart code = true)
    (hdash : code.getLast? ≠ some '-') (left right : Bool) (rest : List Char) :
    segments ((Segment.region kind left code right).print ++ rest) =
      (Segment.region kind left code right).readBack :: segments rest := by
  obtain ⟨opening, hkind, hleft, hinclude, hopening, hbody⟩ := opens_print hstart left right rest
  have hprint : (Segment.region kind left code right).print ++ rest =
      '[' :: (flag left ++ (kind.marker ++ (inside code right ++ ']' :: rest))) := by
    simp [Segment.print]
  have hrest : ('[' :: (flag left ++ (kind.marker ++ (inside code right ++ ']' :: rest)))).drop
      (opening.length + ((inside (kind.readBack code) right).length + 1)) = rest := by
    rw [← List.drop_drop, hbody]
    simp
  have hlast : (kind.readBack code).getLast? ≠ some '-' := getLast?_readBack hdash
  rw [hprint, segments_region hinclude hopening, hbody, closing?_inside]
  simp only [hrest, hkind, hleft, List.take_left, dashed_inside hlast, content_inside hlast]
  rfl

/-- **Reading undoes printing.**  Segments that can be printed are read back from what is written
for them, white space behind the marker of a comment apart. -/
theorem segments_print {segs : List Segment} (h : ∀ segment ∈ segs, segment.printable = true)
    (hfits : segs.IsChain fun before behind => before.fits behind = true) :
    segments (segs.flatMap Segment.print) = segs.map Segment.readBack := by
  induction segs with
  | nil => simp
  | cons segment segs ih =>
    rw [List.isChain_cons] at hfits
    have ih := ih (fun behind hmem => h behind (List.mem_cons_of_mem _ hmem)) hfits.2
    have hprintable := h segment List.mem_cons_self
    rw [List.flatMap_cons, List.map_cons]
    cases segment with
    | literal text =>
      have htext : text ≠ [] := by simpa [Segment.printable] using hprintable
      have hopen : segs.flatMap Segment.print = [] ∨
          (segs.flatMap Segment.print).head? = some '[' ∧ text.getLast? ≠ some '\\' := by
        cases segs with
        | nil => exact .inl rfl
        | cons behind segs =>
          have hbehind := hfits.1 behind (by simp)
          cases behind <;> simp_all [Segment.fits, Segment.print]
      rw [Segment.print, segments_writeText (hopen.imp_right And.left)
        fun hne => (hopen.resolve_left hne).2, if_neg htext, ih]
      rfl
    | region kind left code right =>
      simp only [Segment.printable, Bool.and_eq_true, decide_eq_true_eq] at hprintable
      rw [segments_print_region hprintable.1 hprintable.2, ih]
    | inclusion left name right => cases hprintable
    | unclosed => cases hprintable

/-- What is read back has the same instructions. -/
lemma instructions_readBack {segs : List Segment} (h : ∀ segment ∈ segs, segment.printable = true)
    (after : Bool) : instructions after (segs.map Segment.readBack) = instructions after segs := by
  induction segs generalizing after with
  | nil => rfl
  | cons segment segs ih =>
    have ih := ih (fun behind hmem => h behind (List.mem_cons_of_mem _ hmem))
    have hbehind : startsTrim (segs.map Segment.readBack) = startsTrim segs := by
      rcases segs with _ | ⟨_ | _ | _ | _, segs⟩ <;> rfl
    have hprintable := h segment List.mem_cons_self
    have hsame : segment.readBack.trimsRight = segment.trimsRight ∧
        ∀ before, segment.readBack.instructions after before =
          segment.instructions after before := by
      cases segment with
      | literal text | inclusion left name right | unclosed => exact ⟨rfl, fun _ => rfl⟩
      | region kind left code right =>
        refine ⟨rfl, fun before => ?_⟩
        simp only [Segment.printable, Bool.and_eq_true] at hprintable
        by_cases hkind : kind = .comment
        · subst hkind
          rfl
        · simp only [Segment.readBack, readBack_eq_self hprintable.1 hkind]
    rw [List.map_cons, instructions, instructions, hbehind, hsame.1, hsame.2, ih]

end Grammar

end BracketTemplate
