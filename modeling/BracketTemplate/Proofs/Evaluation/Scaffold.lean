import Mathlib
import BracketTemplate.Proofs.Evaluation.Straight
import BracketTemplate.Proofs.Grammar.Written
import BracketTemplate.Proofs.Inclusion.Single

/-!
# What a script knows of the texts

The script of a program copies code, and calls the host with the index of everything else.  So two
programs that differ in their texts and their paths only have the same script
(`Program.lower_eq_of_alike`), and two sources do that are written from the same regions with other
texts between them, whatever stands in the texts (`Source.lower_eq_of_texts`).

The calls that are not copied are right: the index in such a line is that of its own instruction, so
the host finds an instruction of the kind that it is asked for, and the call succeeds.
-/

namespace BracketTemplate

variable {σ : Type}

/-! ## Programs with the same script -/

/-- Two instructions are the same, but for a text or a path. -/
inductive Instruction.Alike : Instruction → Instruction → Prop
  | emit (text other : String) : Alike (.emit text) (.emit other)
  | rootdir (path other : Path) : Alike (.rootdir path) (.rootdir other)
  | workdir (path other : Path) : Alike (.workdir path) (.workdir other)
  | same (i : Instruction) : Alike i i

namespace Program

lemma lowerAt_eq_of_alike {i other : Instruction} (h : i.Alike other) (index : Nat) :
    lowerAt index i = lowerAt index other := by
  cases h <;> rfl

/-- **Texts and paths do not get into a script.** -/
theorem lower_eq_of_alike {program other : Program}
    (h : List.Forall₂ Instruction.Alike program other) : program.lower = other.lower := by
  have hfrom : ∀ index, lowerFrom index program = lowerFrom index other := by
    induction h with
    | nil => exact fun _ => rfl
    | cons halike _ ih =>
      intro index
      rw [lowerFrom, lowerFrom, lowerAt_eq_of_alike halike, ih]
  exact hfrom 0

/-- A script is made line by line, of the instructions and their indices. -/
lemma lower_eq_flatten (program : Program) :
    program.lower = (program.mapIdx lowerAt).flatten := by
  have hfrom : ∀ index, lowerFrom index program =
      (program.mapIdx fun n => lowerAt (n + index)).flatten := by
    induction program with
    | nil => exact fun _ => rfl
    | cons i program ih =>
      intro index
      rw [lowerFrom, ih, List.mapIdx_cons, List.flatten_cons, Nat.zero_add]
      simp only [Nat.add_right_comm _ 1 index, Nat.add_assoc]
  exact hfrom 0

/-- An instruction without code is lowered to a call with its own index. -/
lemma lowerAt_of_kind? {i : Instruction} {kind : Script.InstructionKind} (h : i.kind? = some kind)
    (index : Nat) : lowerAt index i = indexCall kind.spelling index := by
  cases i <;> cases h <;> rfl

end Program

namespace Grammar

/-! ## Sources with the same regions -/

/-- What is read alike has the same code in the same places. -/
lemma instructions_alike {segs others : List Segment} (h : List.Forall₂ Segment.Alike segs others) :
    List.Forall₂ Instruction.Alike (instructions false segs) (instructions false others) := by
  induction h with
  | nil => exact .nil
  | @cons segment other segs others halike hrest ih =>
    have htrim {segs others : List Segment} (h : List.Forall₂ Segment.Alike segs others) :
        startsTrim segs = false ∧ startsTrim others = false := by
      cases h with
      | nil => exact ⟨rfl, rfl⟩
      | cons halike _ => cases halike <;> exact ⟨rfl, rfl⟩
    obtain ⟨hsegs, hothers⟩ := htrim hrest
    rw [instructions, instructions, hsegs, hothers]
    cases halike with
    | literal htext hother =>
      have hemits {text : List Char} (h : text ≠ []) :
          (Segment.literal text).instructions false false = [.emit (String.ofList text)] := if_neg h
      rw [hemits htext, hemits hother]
      exact .cons (.emit _ _) ih
    | region kind code => exact List.rel_append (List.forall₂_same.2 fun i _ => .same i) ih

/-- Nothing is included in what is read alike, and all regions end. -/
lemma single_of_alike {segs others : List Segment} (h : List.Forall₂ Segment.Alike segs others) :
    ((∀ segment ∈ segs, segment.isInclusion = false) ∧ .unclosed ∉ segs) ∧
      (∀ segment ∈ others, segment.isInclusion = false) ∧ .unclosed ∉ others := by
  induction h with
  | nil => simp
  | cons halike _ ih => cases halike <;> simpa [Segment.isInclusion] using ih

end Grammar

namespace Source

open Grammar

/-- Two sources that are read alike compile to programs with the same script. -/
lemma exists_lower_eq {s other : Source}
    (h : List.Forall₂ Segment.Alike (segments s.text) (segments other.text))
    (tree tree' : FileTree) :
    ∃ c c', s.compile Program.acceptAll tree = .ok c ∧
      other.compile Program.acceptAll tree' = .ok c' ∧
      c.program.lower = c'.program.lower := by
  obtain ⟨⟨hnone, hends⟩, hnone', hends'⟩ := single_of_alike h
  obtain ⟨c, hc, hprogram⟩ := (s.compile_single tree hnone).1 hends
  obtain ⟨c', hc', hprogram'⟩ := (other.compile_single tree' hnone').1 hends'
  refine ⟨c, c', hc, hc', Program.lower_eq_of_alike ?_⟩
  rw [hprogram, hprogram']
  exact .cons (.rootdir _ _) (.cons (.workdir _ _) (instructions_alike h))

/-- **Texts have no say in a script.**  Two sources that are put together from the same regions,
with other texts between them, where there were any, have the same script, in whatever directories
they are compiled.  And the script of every program is made of a line for each instruction.  The
line of a text or a directory is a call with the index of just that instruction: the host finds an
instruction of the kind that it is asked for, carries it out, and goes on with what follows the
call. -/
theorem lower_eq_of_texts :
    (∀ parts others : List Part, List.Forall₂ Part.Alike parts others →
      (∀ part ∈ parts, part.Proper) → (∀ part ∈ others, part.Proper) →
      ∀ (tree tree' : FileTree) (workdir workdir' rootdir rootdir' : Path)
        (file file' : Option Path),
      ∃ c c',
        compile Program.acceptAll tree ⟨parts.flatMap Part.written, workdir, rootdir, file⟩ =
          .ok c ∧
        compile Program.acceptAll tree' ⟨others.flatMap Part.written, workdir', rootdir', file'⟩ =
          .ok c' ∧
        c.program.lower = c'.program.lower) ∧
    ∀ program : Program,
      program.lower = (program.mapIdx Program.lowerAt).flatten ∧
      ∀ (index : Nat) (i : Instruction), program[index]? = some i →
        (i.kind? = none → ∃ code, i = .escaped code ∨ i = .raw code ∨ i = .statement code) ∧
        ∀ kind, i.kind? = some kind →
          Program.lowerAt index i = Program.indexCall kind.spelling index ∧
          ∀ s : Scene σ, s.perform program kind index = (true, s.carryOut i) ∧
            ∀ (includePage : String → Scene σ → Scene σ) (m : Script.Machine) (n : Int64)
              (site : Script.Site) (h : Script.Heap)
              (after : Script.Heap → Script.Outcome Script.Signal),
              m.HasRoom → Script.Val.hostNat (.int n) = .ok index →
              Scene.LeadsWithin includePage program 3
                (m.goOn (.call (.builtin (.host kind.caller)) [.int n] site h fun _ h => after h),
                  s)
                (m.goOn (after h), s.carryOut i) := by
  refine ⟨fun parts others h hparts hothers tree tree' _ _ _ _ _ _ => ?_, fun program =>
    ⟨program.lower_eq_flatten, fun index i hi => ⟨fun hkind => ?_, fun kind hkind => ?_⟩⟩⟩
  · have hread := @segments_alike parts others h hparts hothers [] [] Iff.rfl (by simp) (by simp)
    exact exists_lower_eq hread tree tree'
  · cases i with
    | escaped code | raw code | statement code => exact ⟨code, by simp⟩
    | emit | rootdir | workdir => cases hkind
  · refine ⟨Program.lowerAt_of_kind? hkind index, fun s => ?_⟩
    have hperform : s.perform program kind index = (true, s.carryOut i) :=
      Scene.perform_of_kind? hi hkind
    refine ⟨hperform, fun includePage m n site h after hroom hn => ?_⟩
    exact Scene.leadsWithin_caller hroom hn hperform site h after

/-- A text may look like the script: it is called by its index all the same. -/
theorem lower_eq_of_texts_quoted :
    (∃ c c', compile Program.acceptAll ⟨[], [], 0⟩
          ⟨"<p>[=x ]</p>".toList, ⟨['/']⟩, ⟨['/']⟩, none⟩ = .ok c ∧
        compile Program.acceptAll ⟨[], [], 0⟩
          ⟨"\\]\\] error(1) --\\[\\[[=x ]\n".toList, ⟨"/a".toList⟩, ⟨['/']⟩, none⟩ = .ok c' ∧
        c.program.lower = c'.program.lower) ∧
      ∀ s : Scene Unit, s.perform [.rootdir ⟨['/']⟩, .emit "__text(0)"] .text 1 =
        (true, s.carryOut (.emit "__text(0)")) := by
  obtain ⟨hsame, hlines⟩ := @lower_eq_of_texts Unit
  have hregion : (Part.region "[=x ]".toList).Proper :=
    @Part.proper_print .escaped "x ".toList (by decide) (by decide)
  have hparts {before behind : List Char} (hbefore : before.getLast? ≠ some '\\')
      (hbehind : behind.getLast? ≠ some '\\') :
      ∀ part ∈ [Part.text before, .region "[=x ]".toList, .text behind], part.Proper := by
    simp only [List.forall_mem_cons]
    exact ⟨hbefore, hregion, hbehind, by simp⟩
  obtain ⟨-, hcalls⟩ :=
    ((hlines [.rootdir ⟨['/']⟩, .emit "__text(0)"]).2 1 (.emit "__text(0)") rfl).2 .text rfl
  refine ⟨?_, fun s => (hcalls s).1⟩
  exact hsame [.text "<p>".toList, .region "[=x ]".toList, .text "</p>".toList]
    [.text "]] error(1) --[[".toList, .region "[=x ]".toList, .text "\n".toList]
    (.cons (.text (by decide)) (.cons (.region _) (.cons (.text (by decide)) .nil)))
    (hparts (by decide) (by decide)) (hparts (by decide) (by decide)) _ _ _ _ _ _ _ _

end Source

end BracketTemplate
