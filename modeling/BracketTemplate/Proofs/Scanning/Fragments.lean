import Mathlib
import BracketTemplate.Proofs.Scanning.Include
import BracketTemplate.Proofs.Scanning.Program

/-!
# Pending text in fragments

A scan hands its text over in fragments: a run of characters, a bracket that was escaped, a
backslash.  A draft joins them at once.  It could as well keep them apart until they are flushed,
and trim them from the last one on, dropping those that are blank altogether (`Fragmented`).  The
two ways come to the same after any edits (`Fragmented.whole_editAll`), so that nothing but what the
fragments add up to has a bearing on the program.

An edit that trims or flushes is a *barrier*.  Texts between two barriers can be gathered into one
(`editAll_gather`), and the blanks that trimming takes off are the last ones of that text
(`trim_editAll`).
-/

namespace BracketTemplate.Draft

/-! ## Edits -/

/-- What scanning does to a draft, one thing at a time. -/
inductive Edit where
  | text (fragment : List Char)
  | trim
  | flush
  | opening (region : Region)
  | code (code : List Char)
  | closing
  | emit (i : Instruction)
  deriving DecidableEq, Repr

/-- Whether the edit trims or flushes the text before it. -/
def Edit.isBarrier : Edit → Bool
  | trim | flush | opening _ => true
  | _ => false

/-- The text that an edit adds. -/
def Edit.added : Edit → List Char
  | text fragment => fragment
  | _ => []

/-- Makes an edit. -/
def edit (d : Draft) : Edit → Draft
  | .text fragment => d.pushText fragment
  | .trim => d.trimTextEnd
  | .flush => d.flushText
  | .opening region => d.openRegion region
  | .code code => d.pushCode code
  | .closing => d.closeRegion
  | .emit i => d.emit i

/-- Makes edits one after another. -/
def editAll (d : Draft) (edits : List Edit) : Draft := edits.foldl edit d

/-- The edits with all texts between two barriers gathered into one, which comes right before the
second barrier; `text` is what has been gathered so far. -/
def gather (text : List Char) : List Edit → List Edit
  | [] => [.text text]
  | .text fragment :: rest => gather (text ++ fragment) rest
  | e :: rest => if e.isBarrier then .text text :: e :: gather [] rest else e :: gather text rest

variable {d : Draft} {e : Edit} {more : List Edit}

lemma editAll_cons (d : Draft) (e : Edit) (edits : List Edit) :
    d.editAll (e :: edits) = (d.edit e).editAll edits := rfl

lemma editAll_append (d : Draft) (edits more : List Edit) :
    d.editAll (edits ++ more) = (d.editAll edits).editAll more :=
  List.foldl_append

/-! ## Texts between barriers -/

lemma pushCode_setPending (d : Draft) (pending code : List Char) :
    ({ d with pending } : Draft).pushCode code = { d.pushCode code with pending } := by
  simp only [pushCode]
  split <;> rfl

lemma closeRegion_setPending (d : Draft) (pending : List Char) :
    ({ d with pending } : Draft).closeRegion = { d.closeRegion with pending } := by
  obtain ⟨_, lastOpen, _, _, _, _, _, _⟩ := d
  cases lastOpen with
  | none => rfl
  | some region => cases region <;> rfl

lemma pending_closeRegion (d : Draft) : d.closeRegion.pending = d.pending := by
  unfold closeRegion
  split <;> rfl

/-- An edit that is no barrier leaves the pending text in front of what it adds. -/
lemma pending_edit (h : e.isBarrier = false) : (d.edit e).pending = d.pending ++ e.added := by
  cases e with
  | text fragment => rfl
  | trim | flush | opening region => cases h
  | code code => exact (pending_pushCode d code).trans (List.append_nil _).symm
  | closing => exact (pending_closeRegion d).trans (List.append_nil _).symm
  | emit i => exact (List.append_nil _).symm

lemma pending_editAll (h : ∀ e ∈ more, e.isBarrier = false) (d : Draft) :
    (d.editAll more).pending = d.pending ++ more.flatMap Edit.added := by
  induction more generalizing d with
  | nil => exact (List.append_nil _).symm
  | cons e more ih =>
    rw [List.forall_mem_cons] at h
    rw [editAll_cons, ih h.2, pending_edit h.1, List.flatMap_cons, List.append_assoc]

/-- Text can be added before or after an edit that is no barrier and adds none. -/
lemma pushText_edit (hbarrier : e.isBarrier = false) (htext : ∀ fragment, e ≠ .text fragment)
    (d : Draft) (text : List Char) : (d.edit e).pushText text = (d.pushText text).edit e := by
  cases e with
  | text fragment => exact absurd rfl (htext fragment)
  | trim | flush | opening region => cases hbarrier
  | code code =>
    have hsame := pushCode_setPending d (d.pending ++ text) code
    rw [edit, pushText, pending_pushCode, ← hsame]
    rfl
  | closing =>
    have hsame := closeRegion_setPending d (d.pending ++ text)
    rw [edit, pushText, pending_closeRegion, ← hsame]
    rfl
  | emit i => rfl

/-- **Texts between two barriers count as one.** -/
theorem editAll_gather (d : Draft) (text : List Char) (edits : List Edit) :
    d.editAll (gather text edits) = (d.pushText text).editAll edits := by
  induction edits generalizing d text with
  | nil => rfl
  | cons e rest ih =>
    by_cases htext : ∃ fragment, e = .text fragment
    · obtain ⟨fragment, rfl⟩ := htext
      rw [gather, ih, ← pushText_pushText]
      rfl
    have hne : ∀ fragment, e ≠ .text fragment := fun fragment heq => htext ⟨fragment, heq⟩
    rw [gather.eq_3 text e rest hne]
    split
    · rw [editAll_cons, editAll_cons, ih, pushText_nil]
      rfl
    · next hbarrier =>
      rw [editAll_cons, ih, pushText_edit (by simpa using hbarrier) hne]
      rfl

/-- Fragments in a row count as what they add up to. -/
lemma editAll_fragments (d : Draft) (fragments : List (List Char)) (after : List Edit) :
    d.editAll (fragments.map .text ++ after) = d.editAll (.text fragments.flatten :: after) := by
  have hrow : ∀ d : Draft, d.editAll (fragments.map .text) = d.pushText fragments.flatten := by
    induction fragments with
    | nil => exact fun d => d.pushText_nil.symm
    | cons fragment rest ih =>
      intro d
      rw [List.map_cons, editAll_cons, ih, edit, pushText_pushText, List.flatten_cons]
  rw [editAll_append, hrow, editAll_cons, edit]

/-! ## Trimming -/

/-- Blanks are taken off no further than a text that does not end in one. -/
lemma dropBlanks_append {front : List Char} (h : ∀ c ∈ front.getLast?, c ≠ ' ' ∧ c ≠ '\t')
    (text : List Char) : dropBlanks (front ++ text) = front ++ dropBlanks text := by
  have hfront : dropBlanks front = front := by
    rw [dropBlanks, List.dropWhile_eq_self_iff.2, List.reverse_reverse]
    intro hpos
    have hlast := h (front.reverse[0]) (by
      rw [← List.head?_reverse, List.head?_eq_getElem?, List.getElem?_eq_getElem hpos]
      rfl)
    rw [Bool.or_eq_true, decide_eq_true_eq, decide_eq_true_eq]
    rintro (hspace | htab)
    · exact hlast.1 hspace
    · exact hlast.2 htab
  unfold dropBlanks at hfront ⊢
  rw [List.reverse_append, List.dropWhile_append]
  split
  · next hall =>
    rw [hfront, List.isEmpty_iff.1 hall]
    simp
  · rw [List.reverse_append, List.reverse_reverse]

/-- No text that stands behind a barrier ends in a blank, and behind most there is none at all. -/
lemma pending_barrier (h : e.isBarrier = true) (d : Draft) :
    (∀ c ∈ (d.edit e).pending.getLast?, c ≠ ' ' ∧ c ≠ '\t') ∧
      (e ≠ .trim → (d.edit e).pending = []) := by
  cases e with
  | text | code | closing | emit => cases h
  | trim => exact ⟨(losesBlanks d.pending).stop, fun hne => absurd rfl hne⟩
  | flush =>
    have hnone : (d.edit .flush).pending = [] := d.pending_flushText
    exact ⟨by rw [hnone]; exact nofun, fun _ => hnone⟩
  | opening region =>
    have hnone : (d.edit (.opening region)).pending = [] := d.pending_flushText
    exact ⟨by rw [hnone]; exact nofun, fun _ => hnone⟩

/-- **Trimming takes off the last blanks** of the texts that were added since the last barrier, and
nothing else. -/
theorem trim_editAll (hbarrier : e.isBarrier = true) (hmore : ∀ e ∈ more, e.isBarrier = false)
    (d : Draft) :
    ((d.edit e).editAll more).pending = (d.edit e).pending ++ more.flatMap Edit.added ∧
      ((d.edit e).editAll more).edit .trim =
        { (d.edit e).editAll more with
          pending := (d.edit e).pending ++ dropBlanks (more.flatMap Edit.added) } := by
  have hpending := pending_editAll hmore (d.edit e)
  refine ⟨hpending, ?_⟩
  rw [← dropBlanks_append (pending_barrier hbarrier d).1, ← hpending]
  rfl

/-! ## Flushing -/

/-- The instruction that writes nothing. -/
def silent : Instruction := .emit ""

lemma count_flushText (d : Draft) : d.flushText.program.count silent = d.program.count silent := by
  rw [program_flushText, List.count_append]
  suffices hnone : (Grammar.emitted d.pending).count silent = 0 by rw [hnone, Nat.add_zero]
  unfold Grammar.emitted
  split
  · rfl
  · next hne =>
    have hother : Instruction.emit (String.ofList d.pending) ≠ silent := by
      intro heq
      exact hne (String.ofList_inj.1 (Instruction.emit.inj heq))
    exact List.count_eq_zero.2 fun hmem => hother (List.mem_singleton.1 hmem).symm

lemma count_emit (d : Draft) (i : Instruction) :
    (d.emit i).program.count silent = d.program.count silent + if i = silent then 1 else 0 := by
  have hemit : (d.emit i).program = d.program ++ [i] := rfl
  rw [hemit, List.count_append, List.count_singleton]
  simp

/-- Only an edit that adds the instruction itself adds one that writes nothing. -/
lemma count_edit (d : Draft) (e : Edit) : (d.edit e).program.count silent =
    d.program.count silent + if e = .emit silent then 1 else 0 := by
  cases e with
  | text | trim => rfl
  | flush => exact d.count_flushText
  | opening => exact d.count_flushText
  | code => rw [edit, program_pushCode]; rfl
  | closing =>
    rw [edit, closeRegion, if_neg (by simp), Nat.add_zero]
    split
    · exact (count_emit _ _).trans rfl
    · exact (count_emit _ _).trans rfl
    · rfl
    · rfl
    · exact (count_emit _ _).trans rfl
    · exact (count_emit _ _).trans rfl
  | emit i =>
    rw [edit, count_emit]
    simp

/-- **No flush adds an instruction that writes nothing.** -/
theorem count_editAll (d : Draft) (edits : List Edit) : (d.editAll edits).program.count silent =
    d.program.count silent + edits.count (.emit silent) := by
  induction edits generalizing d with
  | nil => rfl
  | cons e edits ih =>
    rw [editAll_cons, ih, count_edit, List.count_cons]
    simp only [beq_iff_eq]
    omega

/-! ## Fragments -/

/-- A draft that keeps its pending text in the fragments it came in, the last one first. -/
structure Fragmented where
  fragments : List (List Char)
  /-- All but the pending text. -/
  draft : Draft

/-- Takes the blanks off the last fragments: those that are blank altogether go, and the first that
is not is shortened. -/
def trimFragments : List (List Char) → List (List Char)
  | [] => []
  | fragment :: before =>
    let kept := dropBlanks fragment
    if kept = [] then trimFragments before else kept :: before

namespace Fragmented

/-- What the fragments add up to. -/
def pending (p : Fragmented) : List Char := p.fragments.reverse.flatten

/-- Makes an instruction of the fragments, if there is anything in them. -/
def flushText (p : Fragmented) : Fragmented :=
  if p.fragments = [] then p
  else if p.pending = [] then ⟨[], p.draft⟩
  else ⟨[], p.draft.emit (.emit (String.ofList p.pending))⟩

/-- Makes an edit. -/
def edit (p : Fragmented) : Edit → Fragmented
  | .text fragment => ⟨fragment :: p.fragments, p.draft⟩
  | .trim => ⟨trimFragments p.fragments, p.draft⟩
  | .flush => p.flushText
  | .opening region =>
    ⟨p.flushText.fragments, { p.flushText.draft with lastOpen := some region, code := [] }⟩
  | .code code => ⟨p.fragments, p.draft.pushCode code⟩
  | .closing => ⟨p.fragments, p.draft.closeRegion⟩
  | .emit i => ⟨p.fragments, p.draft.emit i⟩

/-- Makes edits one after another. -/
def editAll (p : Fragmented) (edits : List Edit) : Fragmented := edits.foldl edit p

/-- The finished program, with the files it depends on. -/
def finish (p : Fragmented) : Program × List Path := (p.flushText.draft.program, p.draft.touched)

/-- The draft with the fragments joined. -/
def whole (p : Fragmented) : Draft := { p.draft with pending := p.pending }

variable (p : Fragmented)

@[simp] lemma pending_whole : p.whole.pending = p.pending := rfl

end Fragmented

/-- Trimming fragments from the last one on is trimming their text. -/
lemma flatten_trimFragments (fragments : List (List Char)) :
    (trimFragments fragments).reverse.flatten = dropBlanks fragments.reverse.flatten := by
  induction fragments with
  | nil => rfl
  | cons fragment before ih =>
    rw [trimFragments, List.reverse_cons, List.flatten_append, List.flatten_singleton]
    split
    · next hblank =>
      -- what is left of the text before may end in blanks again
      rw [ih]
      have hall : ∀ c ∈ fragment.reverse, (c = ' ' || c = '\t') = true := by
        rw [← List.dropWhile_eq_nil_iff]
        exact List.reverse_eq_nil_iff.1 hblank
      unfold dropBlanks
      rw [List.reverse_append, List.dropWhile_append_of_pos hall]
    · next hkept =>
      rw [List.reverse_cons, List.flatten_append, List.flatten_singleton]
      unfold dropBlanks at hkept ⊢
      rw [List.reverse_append, List.dropWhile_append, if_neg, List.reverse_append,
        List.reverse_reverse]
      simpa using hkept

namespace Fragmented

variable (p : Fragmented)

lemma whole_flushText : p.flushText.whole = p.whole.flushText := by
  by_cases hnone : p.pending = []
  · rw [Draft.flushText, pending_whole, if_pos hnone, flushText]
    split
    · rfl
    · rw [whole, whole, hnone]
      rfl
  · have hsome : p.fragments ≠ [] := by
      intro heq
      rw [pending, heq] at hnone
      exact hnone rfl
    rw [flushText, if_neg hsome, if_neg hnone, Draft.flushText, pending_whole, if_neg hnone]
    rfl

/-- An edit of the fragments is that edit of the whole. -/
lemma whole_edit (e : Edit) : (p.edit e).whole = p.whole.edit e := by
  cases e with
  | text fragment =>
    simp [edit, Draft.edit, whole, pending, pushText]
  | trim =>
    have htrim := flatten_trimFragments p.fragments
    simp only [edit, Draft.edit, whole, pending, trimTextEnd, htrim]
  | flush => exact p.whole_flushText
  | opening region =>
    have hflush := congrArg (fun d : Draft => { d with lastOpen := some region, code := [] })
      p.whole_flushText
    exact hflush
  | code code => exact (pushCode_setPending p.draft p.pending code).symm
  | closing => exact (closeRegion_setPending p.draft p.pending).symm
  | emit i => rfl

/-- **Keeping the fragments apart comes to the same as joining them.** -/
theorem whole_editAll (edits : List Edit) : (p.editAll edits).whole = p.whole.editAll edits := by
  induction edits generalizing p with
  | nil => rfl
  | cons e edits ih =>
    have hstep : (p.editAll (e :: edits)).whole = (p.edit e).whole.editAll edits := ih (p.edit e)
    rw [hstep, whole_edit, Draft.editAll_cons]

lemma finish_whole : p.finish = p.whole.finish := by
  rw [Draft.finish, ← whole_flushText]
  rfl

/-- **Pending text is one text.**  Keeping the fragments apart comes to the same as joining them.
Texts between two barriers count as one whatever else is edited in between, so that fragments in a
row can be split or joined.  Trimming takes off the last blanks of what has been added since the
last barrier, and nothing of what stood there before, which is nothing at all when the barrier has
flushed.  And only an edit that adds an instruction which writes nothing adds one. -/
theorem pending_spec (p : Fragmented) :
    (∀ edits, (p.editAll edits).whole = p.whole.editAll edits ∧
      (p.editAll edits).finish = (p.whole.editAll edits).finish) ∧
    (∀ edits, (p.editAll edits).whole = (p.editAll (gather [] edits)).whole) ∧
    (∀ (fragments : List (List Char)) (after : List Edit),
      (p.editAll (fragments.map .text ++ after)).whole =
        (p.editAll (.text fragments.flatten :: after)).whole) ∧
    (∀ barrier more, barrier.isBarrier = true → (∀ e ∈ more, e.isBarrier = false) →
      ∃ kept, LosesBlanks (more.flatMap Edit.added) kept ∧
        ((p.edit barrier).editAll more).pending =
          (p.edit barrier).pending ++ more.flatMap Edit.added ∧
        (((p.edit barrier).editAll more).edit .trim).pending = (p.edit barrier).pending ++ kept ∧
        (((p.edit barrier).editAll more).edit .trim).draft = ((p.edit barrier).editAll more).draft ∧
        (barrier ≠ .trim → (p.edit barrier).pending = [])) ∧
    ∀ edits, (p.editAll edits).finish.1.count silent =
      p.draft.program.count silent + edits.count (.emit silent) := by
  refine ⟨fun edits => ⟨p.whole_editAll edits, ?_⟩, fun edits => ?_, fun fragments after => ?_,
    fun barrier more hbarrier hmore => ?_, fun edits => ?_⟩
  · rw [finish_whole, whole_editAll]
  · rw [whole_editAll, whole_editAll, editAll_gather, pushText_nil]
  · rw [whole_editAll, whole_editAll, editAll_fragments]
  · obtain ⟨hpending, htrim⟩ := trim_editAll hbarrier hmore p.whole
    rw [← whole_edit, ← whole_editAll] at hpending htrim
    rw [← whole_edit] at htrim
    have hkept := congrArg (fun d : Draft => d.pending) htrim
    refine ⟨_, losesBlanks _, hpending, hkept, rfl, fun hne => ?_⟩
    have hnone := (pending_barrier hbarrier p.whole).2 hne
    rwa [← whole_edit] at hnone
  · rw [finish_whole, whole_editAll, Draft.finish, count_flushText, count_editAll]
    rfl

/-- Blanks go over the border of two fragments, up to a line end. -/
theorem pending_spec_blanks :
    ∃ kept, LosesBlanks "a\n \t ".toList kept ∧ kept = "a\n".toList ∧
      (((⟨[], default⟩ : Fragmented).edit .flush).editAll
        [.text "a\n ".toList, .text [], .text "\t ".toList, .trim]).pending = kept := by
  obtain ⟨kept, hkept, -, htrim, -, hnone⟩ := (pending_spec ⟨[], default⟩).2.2.2.1 .flush
    [.text "a\n ".toList, .text [], .text "\t ".toList] rfl (by decide)
  rw [hnone (by decide), List.nil_append] at htrim
  exact ⟨kept, hkept, htrim.symm, htrim⟩

end Fragmented

end BracketTemplate.Draft
