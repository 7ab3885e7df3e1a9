import Mathlib
import BracketTemplate.Evaluation.Check
import BracketTemplate.Proofs.Inclusion.Nesting
import BracketTemplate.Proofs.Scanning.Program

/-!
# The cycle guard is exact

`Includes` is the graph of static includes: one source includes another when one of its segments
names the file of the other.  A source is `Acyclic` when no file comes twice on a way through that
graph from the source.  The guard of a compile looks at the chain of files that are being included
and refuses a file that is on it.  Nothing slips through: what compiles is acyclic
(`acyclic_of_compile`).  And nothing is refused without need: an acyclic source compiles when its
includes can be followed and its regions end, however often and by however many spellings it
includes a file (`compile_of_acyclic`).
-/

namespace BracketTemplate

open Grammar

namespace Source

/-! ## The graph of includes -/

/-- One source includes another. -/
inductive Includes (tree : FileTree) (s : Source) : Source → Prop
  | mk {left right : Bool} {name text : List Char} {target : Path}
      (hsegment : .inclusion left name right ∈ segments s.text)
      (hresolve : Path.resolveInclude name s.workdir s.rootdir = .ok target)
      (hread : tree.readText target = .ok text) : Includes tree s (s.included target text)

/-- A source that another reaches through includes. -/
def Reaches (tree : FileTree) : Source → Source → Prop := Relation.ReflTransGen (Includes tree)

/-- Two sources that are not of one file. -/
def Apart (s t : Source) : Prop := ∀ p ∈ s.file, ∀ q ∈ t.file, p.same q = false

/-- No file comes twice on a way of includes that starts at the source. -/
def Acyclic (tree : FileTree) (s : Source) : Prop :=
  ∀ u v, Reaches tree s u → Relation.TransGen (Includes tree) u v → Apart u v

/-- Every region of the source ends, its includes have safe names, and what they name can be
read. -/
structure Followable (tree : FileTree) (s : Source) : Prop where
  closed : .unclosed ∉ segments s.text
  safe : ∀ left name right, .inclusion left name right ∈ segments s.text →
    (Path.mk name).checkSegments = .ok ()
  readable : ∀ left name right target, .inclusion left name right ∈ segments s.text →
    Path.resolveInclude name s.workdir s.rootdir = .ok target →
      ∃ text, tree.readText target = .ok text

variable {tree : FileTree} {s : Source}

/-! ## No cycle slips through -/

/-- Performing segments to the end follows each of their includes. -/
lemma perform_followed {follow : List Char → Position → Draft → Except TemplateError Draft}
    {lexemes : List Lexeme} {left right : Bool} {name : List Char}
    (hmem : .inclusion left name right ∈ lexemes.map (·.segment)) {here : Position} {c : Cursor}
    {d d' : Draft} (h : s.perform follow here c d lexemes = .ok d') :
    ∃ here e e', follow name here e = .ok e' := by
  induction lexemes generalizing here c d with
  | nil => cases hmem
  | cons lexeme rest ih =>
    obtain ⟨segment, n⟩ := lexeme
    rw [List.map_cons, List.mem_cons] at hmem
    cases segment with
    | literal text => exact ih (by simpa using hmem) h
    | region kind left code right => exact ih (by simpa using hmem) h
    | inclusion left' name' right' =>
      simp only [perform] at h
      split at h
      · cases h
      next entered hentered =>
      rcases hmem with hhead | hmem
      · cases hhead
        exact ⟨_, _, _, hentered⟩
      · exact ih hmem h
    | unclosed => cases h

/-- An include of a source that is inlined names a file that can be read, has passed the guard and
has been inlined. -/
lemma inline_followed {depth : Nat} {chain : List Path} {d d' : Draft} {left right : Bool}
    {name : List Char} {target : Path} (h : inline tree depth chain s d = .ok d')
    (hsegment : .inclusion left name right ∈ segments s.text)
    (hresolve : Path.resolveInclude name s.workdir s.rootdir = .ok target) :
    ∃ depth text e e', tree.readText target = .ok text ∧ chain.any (·.same target) = false ∧
      inline tree depth (target :: chain) (s.included target text) e = .ok e' := by
  cases depth with
  | zero =>
    obtain ⟨here, e, e', hfollowed⟩ := perform_followed hsegment h
    simp [refuse, hresolve] at hfollowed
  | succ depth =>
    obtain ⟨here, e, e', hfollowed⟩ := perform_followed hsegment h
    obtain ⟨target', text, after, hresolve', hfresh, hread, hinner, -⟩ := s.enter_eq_ok.1 hfollowed
    rw [hresolve] at hresolve'
    cases hresolve'
    exact ⟨depth, text, _, after, hread, hfresh, hinner⟩

/-- What an inlined source includes has been inlined. -/
lemma inline_includes {depth : Nat} {chain : List Path} {d d' : Draft} {t : Source}
    (h : inline tree depth chain s d = .ok d') (ht : Includes tree s t) :
    ∃ depth target e e', t.file = some target ∧ chain.any (·.same target) = false ∧
      inline tree depth (target :: chain) t e = .ok e' := by
  obtain ⟨hsegment, hresolve, hread⟩ := ht
  obtain ⟨depth, text, e, e', hread', hfresh, hinner⟩ := inline_followed h hsegment hresolve
  rw [hread] at hread'
  cases hread'
  exact ⟨depth, _, e, e', rfl, hfresh, hinner⟩

/-- No file on the chain is reached from a source that is inlined. -/
lemma inline_reaches {depth : Nat} {chain : List Path} {d d' : Draft} {t : Source}
    (h : inline tree depth chain s d = .ok d') (ht : Relation.TransGen (Includes tree) s t) :
    ∀ q ∈ t.file, chain.any (·.same q) = false := by
  induction ht using Relation.TransGen.head_induction_on generalizing depth chain d d' with
  | single hincludes =>
    obtain ⟨_, target, _, _, hfile, hfresh, -⟩ := inline_includes h hincludes
    rintro q hq
    rw [hfile] at hq
    cases hq
    exact hfresh
  | head hincludes _ ih =>
    obtain ⟨_, target, _, _, -, -, hinner⟩ := inline_includes h hincludes
    intro q hq
    have hchain := ih hinner q hq
    rw [List.any_cons, Bool.or_eq_false_iff] at hchain
    exact hchain.2

/-- A source that is reached from one that is inlined is inlined, too, with its file on the
chain. -/
lemma inline_reached {depth : Nat} {chain : List Path} {d d' : Draft} {t : Source}
    (h : inline tree depth chain s d = .ok d') (hchain : ∀ p ∈ s.file, p ∈ chain)
    (ht : Reaches tree s t) :
    ∃ depth chain e e', inline tree depth chain t e = .ok e' ∧ ∀ p ∈ t.file, p ∈ chain := by
  induction ht with
  | refl => exact ⟨depth, chain, d, d', h, hchain⟩
  | tail _ hincludes ih =>
    obtain ⟨depth, chain, e, e', hinline, -⟩ := ih
    obtain ⟨depth, target, e, e', hfile, -, hinner⟩ := inline_includes hinline hincludes
    refine ⟨depth, target :: chain, e, e', hinner, fun p hp => ?_⟩
    rw [hfile] at hp
    cases hp
    exact List.mem_cons_self

/-- **What compiles is acyclic.** -/
theorem acyclic_of_compile {accepts : String → Program → Except TemplateError Unit} {c : Compiled}
    (h : s.compile accepts tree = .ok c) : Acyclic tree s := by
  obtain ⟨d, hinline, -, -⟩ := s.compile_eq_ok.1 h
  intro u v hu hv p hp q hq
  obtain ⟨depth, chain, e, e', hinner, hchain⟩ :=
    inline_reached hinline (fun p hp => by simpa using hp) hu
  have hfresh := inline_reaches hinner hv q hq
  rw [List.any_eq_false] at hfresh
  simpa using hfresh p (hchain p hp)

/-! ## Nothing is refused without need -/

/-- A source of an acyclic graph is inlined, when the files on the chain are of sources that lead to
it. -/
lemma inline_of_acyclic {page : Source} (hacyclic : Acyclic tree page)
    (hfollowable : ∀ u, Reaches tree page u → Followable tree u) {n : Nat} {chain : List Path}
    (hs : s.Confined) (hroom : Room tree n chain) (hreached : Reaches tree page s)
    (hchain : ∀ p ∈ chain, ∃ w, Reaches tree page w ∧ Reaches tree w s ∧ p ∈ w.file) (d : Draft) :
    ∃ d', inline tree (n + 1) chain s d = .ok d' := by
  induction n using Nat.strong_induction_on generalizing s chain d with
  | _ n ih =>
    obtain ⟨hclosed, hsafe, hreadable⟩ := hfollowable s hreached
    refine s.perform_ok _ hclosed (fun left name right hsegment here e => ?_) _ _ _
    obtain ⟨base, q, hresolve, -⟩ := hs.resolveInclude (hsafe left name right hsegment)
    obtain ⟨text, hread⟩ := hreadable left name right _ hsegment hresolve
    have hincludes := Includes.mk hsegment hresolve hread
    have hfresh : chain.any (·.same (base.join q)) = false := by
      rw [List.any_eq_false]
      intro p hp
      obtain ⟨w, hw, hws, hpw⟩ := hchain p hp
      have hapart := hacyclic w _ hw (Relation.TransGen.tail' hws hincludes) p hpw _ rfl
      simp [hapart]
    obtain ⟨m, rfl, hroom'⟩ := hroom.enter (hs.grounded_target hresolve) hread hfresh
    have hchain' : ∀ p ∈ base.join q :: chain, ∃ w, Reaches tree page w ∧
        Reaches tree w (s.included (base.join q) text) ∧ p ∈ w.file := by
      intro p hp
      rcases List.mem_cons.1 hp with rfl | hp
      · exact ⟨_, hreached.tail hincludes, .refl, rfl⟩
      · obtain ⟨w, hw, hws, hpw⟩ := hchain p hp
        exact ⟨w, hw, hws.tail hincludes, hpw⟩
    obtain ⟨after, hinner⟩ := ih m (Nat.lt_succ_self m) (hs.included hresolve hread) hroom'
      (hreached.tail hincludes) hchain'
      ((e.flushText.touch (base.join q)).pushWorkdir (s.included (base.join q) text).workdir)
    exact ⟨_, s.enter_eq_ok.2 ⟨_, text, after, hresolve, hfresh, hread, hinner, rfl⟩⟩

/-- **What is acyclic compiles**, when its includes can be followed and its regions end. -/
theorem compile_of_acyclic (hs : s.Confined) (hacyclic : Acyclic tree s)
    (hfollowable : ∀ u, Reaches tree s u → Followable tree u) :
    ∃ c, s.compile Program.acceptAll tree = .ok c := by
  have hchain : ∀ p ∈ s.file.toList, ∃ w, Reaches tree s w ∧ Reaches tree w s ∧ p ∈ w.file :=
    fun p hp => ⟨s, .refl, .refl, by simpa using hp⟩
  obtain ⟨d, hd⟩ := inline_of_acyclic hacyclic hfollowable hs (room_start s.file.toList) .refl
    hchain s.opening
  exact ⟨_, s.compile_eq_ok.2 ⟨d, hd, rfl, rfl⟩⟩

/-- **The cycle guard is exact.**  Compiling a source that a program can make ends, with no more
includes nested than the tree has files; no file comes twice on a chain of includes of what
compiles; and where none does, and the includes can be followed, it compiles.  The current directory
is a path without `..`, as it is in a tree without links. -/
theorem compile_ends (hcwd : tree.cwdPath.hasParentSegment = false) (hmade : Made tree s) :
    (∃ outcome, s.draft tree = s.start.withWorkdir s.workdir s.name (fun _ => outcome) ∧
      Scanned tree tree.files.length s.file.toList s .text .start ⟨.start s.text, s.opening⟩
        outcome ∧
      ∀ n other, Scanned tree n s.file.toList s .text .start ⟨.start s.text, s.opening⟩ other →
        other = outcome) ∧
    (∀ accepts c, s.compile accepts tree = .ok c → Acyclic tree s) ∧
    (Acyclic tree s → (∀ u, Reaches tree s u → Followable tree u) →
      ∃ c, s.compile Program.acceptAll tree = .ok c) := by
  have hs := hmade.confined hcwd
  refine ⟨?_, fun accepts c h => acyclic_of_compile h, compile_of_acyclic hs⟩
  obtain ⟨outcome, houtcome⟩ := scanned_total hs (room_start s.file.toList) .text .start
    ⟨.start s.text, s.opening⟩
  have hcomputed : ∀ n other,
      Scanned tree n s.file.toList s .text .start ⟨.start s.text, s.opening⟩ other →
        other = outcome := by
    intro n other h
    rw [← h.eq_scanAll (Nat.le_add_right n tree.files.length),
      ← houtcome.eq_scanAll (Nat.le_add_left tree.files.length n)]
  refine ⟨outcome, ?_, houtcome, hcomputed⟩
  rw [draft_eq]
  refine withWorkdir_congr ?_
  rw [scanInto_eq]
  exact houtcome.eq_scanAll le_rfl

/-- Two files that include a third, each by its own spelling. -/
def diamond : FileTree where
  entries := [([['a']], .file (Utf8.encode "[<c]".toList) 0),
    ([['b']], .file (Utf8.encode "[<./c]".toList) 0), ([['c']], .file (Utf8.encode "!".toList) 0)]
  cwd := []

/-- A text that includes all three. -/
def diamondPage : Source := ⟨"[<a][</b][<c]".toList, ⟨['/']⟩, ⟨['/']⟩, none⟩

theorem compile_ends_diamond :
    Made diamond diamondPage ∧
      (∃ outcome, Scanned diamond 3 [] diamondPage .text .start
        ⟨.start diamondPage.text, diamondPage.opening⟩ outcome) ∧
      Acyclic diamond diamondPage := by
  have hmade : Made diamond diamondPage := by
    have htext : ofText diamond diamondPage.text none none none = .ok diamondPage := by
      decide +kernel
    exact .text htext
  obtain ⟨⟨outcome, -, hscanned, -⟩, hacyclic, -⟩ := compile_ends (by decide +kernel) hmade
  have hok : (diamondPage.compile Program.acceptAll diamond).isOk = true := by decide +kernel
  cases hcompile : diamondPage.compile Program.acceptAll diamond with
  | error e =>
    rw [hcompile] at hok
    cases hok
  | ok c => exact ⟨hmade, ⟨outcome, hscanned⟩, hacyclic _ c hcompile⟩

end Source

end BracketTemplate
