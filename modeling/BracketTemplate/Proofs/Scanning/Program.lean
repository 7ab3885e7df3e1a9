import Mathlib
import BracketTemplate.Proofs.Scanning.Reading

/-!
# What performing writes

The segments of a source fix the instructions that it writes (`Grammar.instructions`), up to its
static includes: each of them stands there as a mark.  `perform_filled` says that performing the
segments writes these instructions with every mark replaced by what following the include has
written, and that no text of the draft is lost or written twice on the way.  Performing fails of
itself only at a region that never ends (`perform_ok`, `perform_unclosed`).

`Source.alone` scans one source from a fresh draft and leaves the marks in place; it reads no other
file.
-/

namespace BracketTemplate

open Grammar

/-- Whether the instruction sets a directory. -/
def Instruction.directs : Instruction → Bool
  | .rootdir _ | .workdir _ => true
  | _ => false

namespace Draft

variable (d : Draft)

lemma pending_trimIf (trim : Bool) : (d.trimIf trim).pending = trimmed false trim d.pending := by
  cases trim <;> rfl

@[simp] lemma program_trimIf (trim : Bool) : (d.trimIf trim).program = d.program := by
  cases trim <;> rfl

lemma program_flushText : d.flushText.program = d.program ++ emitted d.pending := by
  by_cases h : d.pending = [] <;> simp [flushText, emitted, h]

@[simp] lemma pending_pushCode (code : List Char) : (d.pushCode code).pending = d.pending := by
  unfold pushCode
  split <;> rfl

@[simp] lemma program_pushCode (code : List Char) : (d.pushCode code).program = d.program := by
  unfold pushCode
  split <;> rfl

/-- A region leaves no text pending behind it. -/
@[simp] lemma pending_addRegion (kind : Region) (left : Bool) (code : List Char) (right : Bool) :
    (d.addRegion kind left code right).pending = [] := by
  have hclose : ∀ e : Draft, e.closeRegion.pending = e.pending := by
    intro e
    unfold closeRegion
    split <;> rfl
  simp [addRegion, Scan.closeRegion, openRegion, hclose]

lemma program_closeRegion {kind : Region} (h : d.lastOpen = some kind) :
    d.closeRegion.program =
      d.program ++ (kind.instruction? (String.ofList d.code)).toList := by
  unfold closeRegion
  rw [h]
  cases kind <;> simp only [emit, Region.instruction?, Option.toList, List.append_nil]

/-- A region writes the text before it and the instruction of its code. -/
lemma program_addRegion (kind : Region) (left : Bool) (code : List Char) (right : Bool) :
    (d.addRegion kind left code right).program =
      d.program ++ emitted (trimmed false left d.pending) ++
        (kind.instruction? (String.ofList code)).toList := by
  set e := (d.trimIf left).openRegion kind with he
  have hopen : e.program = d.program ++ emitted (trimmed false left d.pending) := by
    rw [← pending_trimIf, ← d.program_trimIf left, ← program_flushText]
    rfl
  have hclose : (e.pushCode code).closeRegion.program =
      e.program ++ (kind.instruction? (String.ofList code)).toList := by
    by_cases hkind : kind = .comment
    · have hskip : e.pushCode code = e := by rw [pushCode, he, hkind]; rfl
      rw [hskip, e.program_closeRegion (show e.lastOpen = some kind from rfl), hkind]
      rfl
    · have hpush : e.pushCode code = { e with code := code } := by
        rw [pushCode, if_neg (by simpa [he, openRegion] using hkind)]
        rfl
      rw [hpush]
      exact program_closeRegion { e with code := code } rfl
  rw [← hopen, ← hclose]
  rfl

end Draft

/-! ## Marks and what replaces them -/

namespace Grammar

/-- A program with each of its marks replaced by something that fills it. -/
inductive Filled (fills : List Char → Program → Prop) : Program → Program → Prop
  | nil : Filled fills [] []
  | own {i : Instruction} {rest body : Program} (hown : i.directs = false)
      (hrest : Filled fills rest body) : Filled fills (i :: rest) (i :: body)
  | filled {name : List Char} {piece rest body : Program} (hpiece : fills name piece)
      (hrest : Filled fills rest body) : Filled fills (mark name :: rest) (piece ++ body)

/-- Instructions of a source's own stay as they are. -/
lemma Filled.append_left {fills : List Char → Program → Prop} {own rest body : Program}
    (hown : ∀ i ∈ own, i.directs = false) (h : Filled fills rest body) :
    Filled fills (own ++ rest) (own ++ body) := by
  induction own with
  | nil => exact h
  | cons i own ih =>
    exact .own (hown i (by simp)) (ih fun j hj => hown j (by simp [hj]))

/-- Marks that are replaced by themselves leave the program as it is. -/
lemma Filled.eq_self {program body : Program}
    (h : Filled (fun name piece => piece = [mark name]) program body) : body = program := by
  induction h with
  | nil => rfl
  | own _ _ ih => rw [ih]
  | filled hpiece _ ih => rw [ih, hpiece, List.singleton_append]

lemma directs_emitted (text : List Char) : ∀ i ∈ emitted text, i.directs = false := by
  unfold emitted
  split <;> simp [Instruction.directs]

lemma directs_instruction (kind : Region) (code : String) :
    ∀ i ∈ (kind.instruction? code).toList, i.directs = false := by
  cases kind <;> simp [Region.instruction?, Instruction.directs]

/-- The instructions of segments behind a text that is not written yet; the flag says whether the
segment before them trims to its right. -/
def carried (pending : List Char) (after : Bool) (segments : List Segment) : Program :=
  emitted (trimmed false (startsTrim segments) pending) ++ instructions after segments

lemma carried_cons (pending : List Char) (after : Bool) (segment : Segment)
    (rest : List Segment) :
    carried pending after (segment :: rest) =
      emitted (trimmed false segment.trimsLeft pending) ++
        (segment.instructions after (startsTrim rest) ++ instructions segment.trimsRight rest) :=
  rfl

lemma carried_nil (after : Bool) (segments : List Segment) :
    carried [] after segments = instructions after segments := by
  have hnil : trimmed false (startsTrim segments) [] = [] := by
    unfold trimmed
    cases startsTrim segments <;> rfl
  simp [carried, hnil]

end Grammar

namespace Source

variable (s : Source)

/-- What following an include does in a source that is scanned with the given directories: it writes
the text before the include, then something that fills its mark, and leaves no text pending. -/
def Fills (directories : List Path)
    (follow : List Char → Position → Draft → Except TemplateError Draft)
    (fills : List Char → Program → Prop) : Prop :=
  ∀ name here d d', d.skipNewline = false → d.directories = directories →
    follow name here d = .ok d' →
      d'.pending = [] ∧ d'.directories = directories ∧
        ∃ piece, fills name piece ∧ d'.program = d.flushText.program ++ piece

/-- **What performing writes.**  Behind what the draft holds come the instructions of the segments,
with what following the includes has written in place of their marks. -/
theorem perform_filled {directories : List Path}
    {follow : List Char → Position → Draft → Except TemplateError Draft}
    {fills : List Char → Program → Prop} (hf : Fills directories follow fills)
    {lexemes : List Lexeme}
    (hchain : (lexemes.map (·.segment)).IsChain
      fun before behind => before.isLiteral → behind.isLiteral = false)
    {here : Position} {c : Cursor} {d d' : Draft} (hdirectories : d.directories = directories)
    (hpending : ∀ lexeme ∈ lexemes.head?, lexeme.segment.isLiteral → d.pending = [])
    (h : s.perform follow here c d lexemes = .ok d') :
    ∃ body, Filled fills (carried d.pending d.skipNewline (lexemes.map (·.segment))) body ∧
      d'.program = d.program ++ body := by
  induction lexemes generalizing here c d with
  | nil =>
    cases h
    refine ⟨emitted d.pending, ?_, by simp [Draft.calm, Draft.program_flushText]⟩
    simpa [carried, instructions, startsTrim, trimmed] using
      Filled.nil.append_left (directs_emitted d.pending)
  | cons lexeme rest ih =>
    obtain ⟨segment, n⟩ := lexeme
    rw [List.map_cons, List.isChain_cons] at hchain
    obtain ⟨hbehind, hrest⟩ := hchain
    cases segment <;> simp only [perform] at h
    case literal text =>
      have hnil : d.pending = [] := hpending _ rfl rfl
      have hnext : ∀ lexeme ∈ rest.head?, lexeme.segment.isLiteral = false := fun lexeme hmem =>
        hbehind lexeme.segment (by simp_all) rfl
      obtain ⟨body, hfilled, hprogram⟩ := ih hrest (by simpa [Draft.pushText] using hdirectories)
        (fun lexeme hmem hliteral => by rw [hnext lexeme hmem] at hliteral; cases hliteral) h
      refine ⟨body, ?_, hprogram⟩
      have hsame : carried d.pending d.skipNewline
          (.literal text :: rest.map (·.segment)) =
          carried (if d.skipNewline then dropLineEnd text else text) false
            (rest.map (·.segment)) := by
        rw [hnil, carried_nil]
        simp [carried, instructions, Segment.instructions, Segment.trimsRight, trimmed]
      rw [List.map_cons, hsame]
      simpa [Draft.pushText, Draft.calm, hnil] using hfilled
    case region kind left code right =>
      obtain ⟨body, hfilled, hprogram⟩ :=
        ih hrest (by simpa using hdirectories) (fun _ _ _ => by simp) h
      refine ⟨emitted (trimmed false left d.pending) ++
        ((kind.instruction? (String.ofList code)).toList ++ body), ?_, ?_⟩
      · rw [Draft.pending_addRegion, carried_nil] at hfilled
        rw [List.map_cons, carried_cons]
        refine Filled.append_left (directs_emitted _)
          (Filled.append_left (directs_instruction kind _) ?_)
        exact hfilled
      · rw [hprogram, Draft.program_addRegion]
        simp [Draft.calm]
    case inclusion left name right =>
      split at h
      · cases h
      next entered hentered =>
      have hcalm : (d.calm.trimIf left).skipNewline = false := by cases left <;> rfl
      obtain ⟨hnone, hsame, piece, hpiece, hwritten⟩ :=
        hf _ _ _ _ hcalm (by simpa using hdirectories) hentered
      obtain ⟨body, hfilled, hprogram⟩ :=
        ih (d := { entered with skipNewline := right }) hrest hsame (fun _ _ _ => hnone) h
      refine ⟨emitted (trimmed false left d.pending) ++ (piece ++ body), ?_, ?_⟩
      · rw [show ({ entered with skipNewline := right } : Draft).pending = [] from hnone,
          carried_nil] at hfilled
        rw [List.map_cons, carried_cons]
        exact Filled.append_left (directs_emitted _) (.filled hpiece hfilled)
      · rw [hprogram]
        simp [hwritten, Draft.program_flushText, Draft.pending_trimIf, Draft.calm]
    case unclosed => cases h

/-! ## When performing succeeds -/

/-- Performing succeeds where every region ends and every include can be followed. -/
lemma perform_ok (follow : List Char → Position → Draft → Except TemplateError Draft)
    {lexemes : List Lexeme} (hunclosed : .unclosed ∉ lexemes.map (·.segment))
    (hf : ∀ left name right, .inclusion left name right ∈ lexemes.map (·.segment) →
      ∀ here d, ∃ d', follow name here d = .ok d') (here : Position) (c : Cursor) (d : Draft) :
    ∃ d', s.perform follow here c d lexemes = .ok d' := by
  induction lexemes generalizing here c d with
  | nil => exact ⟨_, rfl⟩
  | cons lexeme rest ih =>
    have ih := ih (fun hmem => hunclosed (List.mem_cons_of_mem _ hmem))
      (fun left name right hmem => hf left name right (List.mem_cons_of_mem _ hmem))
    obtain ⟨segment, n⟩ := lexeme
    cases segment <;> simp only [perform]
    case literal text => exact ih _ _ _
    case region kind left code right => exact ih _ _ _
    case inclusion left name right =>
      obtain ⟨entered, hentered⟩ := hf left name right (by simp) here (d.calm.trimIf left)
      rw [hentered]
      exact ih _ _ _
    case unclosed => exact absurd (by simp) hunclosed

/-- Performing does not succeed where a region never ends. -/
lemma perform_unclosed {follow : List Char → Position → Draft → Except TemplateError Draft}
    {lexemes : List Lexeme} {here : Position} {c : Cursor} {d d' : Draft}
    (h : s.perform follow here c d lexemes = .ok d') :
    .unclosed ∉ lexemes.map (·.segment) := by
  induction lexemes generalizing here c d with
  | nil => simp
  | cons lexeme rest ih =>
    obtain ⟨segment, n⟩ := lexeme
    cases segment <;> simp only [perform] at h
    case literal text => simpa using ih h
    case region kind left code right => simpa using ih h
    case inclusion left name right =>
      split at h
      · cases h
      · simpa using ih h
    case unclosed => cases h

/-! ## A source alone -/

/-- Leaves the mark of a static include, behind the text before it. -/
def leaveMark (name : List Char) (_ : Position) (d : Draft) : Outcome :=
  (.ok (), d.flushText.emit (mark name))

/-- Scans a source alone, from a fresh draft; each static include leaves its mark. -/
def alone : Except TemplateError Program :=
  match s.scanLoop leaveMark s.text.length .text .start ⟨.start s.text, default⟩ with
  | (.ok (), d) => .ok d.program
  | (.error e, _) => .error e

/-- Leaving a mark, as performing does it. -/
def marked (name : List Char) (_ : Position) (d : Draft) : Except TemplateError Draft :=
  .ok (d.flushText.emit (mark name)).calm

lemma follows_leaveMark : Follows leaveMark marked :=
  ⟨fun _ _ _ _ => rfl, fun _ _ d d' hzero h => by
    cases h
    simpa [Draft.calm, Draft.emit] using hzero⟩

lemma fills_marked (directories : List Path) :
    Fills directories marked fun name piece => piece = [mark name] := by
  intro name here d d' _ hdirectories h
  cases h
  refine ⟨by simp [Draft.calm, Draft.emit], ?_, [mark name], rfl, rfl⟩
  simpa [Draft.emit] using hdirectories

lemma alone_eq_perform : s.alone =
    (s.perform marked .start (.start s.text) default (read s.text)).map (·.program) := by
  have hperform := s.scanAll_perform follows_leaveMark .start ⟨.start s.text, default⟩ rfl
  refine Eq.trans ?_ (congrArg (Except.map (·.program)) hperform)
  unfold alone scanAll
  dsimp only [Cursor.start]
  rcases s.scanLoop leaveMark _ _ _ _ with ⟨_ | _, d⟩ <;> rfl

/-- **A source alone writes the instructions of its segments**, and fails only where a region never
ends. -/
theorem alone_eq_ok {program : Program} :
    s.alone = .ok program ↔
      .unclosed ∉ segments s.text ∧ program = instructions false (segments s.text) := by
  have hwritten : ∀ d, s.perform marked .start (.start s.text) default (read s.text) = .ok d →
      .unclosed ∉ segments s.text ∧ d.program = instructions false (segments s.text) := by
    intro d h
    obtain ⟨body, hfilled, hprogram⟩ :=
      s.perform_filled (fills_marked []) (isChain_segments s.text) rfl (fun _ _ _ => rfl) h
    refine ⟨s.perform_unclosed h, ?_⟩
    rw [hprogram, hfilled.eq_self]
    exact carried_nil _ _
  rw [alone_eq_perform]
  constructor
  · intro h
    rcases hperform : s.perform marked .start (.start s.text) default (read s.text) with e | d <;>
      rw [hperform] at h <;> cases h
    exact hwritten d hperform
  · rintro ⟨hunclosed, rfl⟩
    obtain ⟨d, hd⟩ := s.perform_ok marked hunclosed
      (fun _ name _ _ _ _ => ⟨_, rfl⟩) .start (.start s.text) default
    rw [hd, ← (hwritten d hd).2]
    rfl

end Source

end BracketTemplate
