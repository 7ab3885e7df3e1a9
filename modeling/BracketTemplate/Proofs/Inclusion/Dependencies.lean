import Mathlib
import BracketTemplate.Proofs.Files.Spelling
import BracketTemplate.Proofs.Inclusion.Chain

/-!
# The files that a program depends on

A compile notes each file that it enters.  `Inclusions` says which ones these are and in which
order, without a draft: a source includes the files that its segments name, one after the other, and
behind each of them those that it includes itself.  What a compile notes is that list behind the
file of the source, each file once and by the first of its spellings (`compile_touched`).

The list is complete.  A file that is met on the way from a source through its includes is in it,
maybe by another spelling (`exists_touched`), and spellings by which a file can be read lead to the
same in every tree.  So a tree in which the files of the list are the same compiles the source to
the same (`compile_agree`).  Nor is there a file too many: where one of the included files cannot be
read and the others are the same, the source does not compile (`not_compile_of_unreadable`).
-/

namespace BracketTemplate

open Grammar

/-! ## Lists of paths without repetition -/

namespace Path

/-- Some paths with another behind them, unless it is there under some spelling. -/
def note (paths : List Path) (path : Path) : List Path :=
  if paths.any (·.same path) then paths else paths ++ [path]

/-- Noting paths one by one drops those that are spellings of an earlier one. -/
lemma foldl_note (paths kept : List Path) :
    paths.foldl note kept = List.eraseDupsBy.loop Path.same paths kept.reverse := by
  induction paths generalizing kept with
  | nil => simp [List.eraseDupsBy.loop]
  | cons path paths ih =>
    have hany : kept.reverse.any (path.same ·) = kept.any (·.same path) := by
      rw [List.any_reverse]
      exact congrArg kept.any (funext fun other => path.same_comm other)
    rw [List.foldl_cons, ih, List.eraseDupsBy.loop, hany, note]
    cases kept.any (·.same path) <;> simp

lemma note_subset {paths kept : List Path} : paths.foldl note kept ⊆ kept ++ paths := by
  induction paths generalizing kept with
  | nil => simp
  | cons path paths ih =>
    intro p hp
    have hmem := List.mem_append.1 (ih hp)
    have hnote : note kept path ⊆ kept ++ [path] := by
      unfold note
      split
      · exact List.subset_append_left kept [path]
      · exact List.Subset.refl _
    rw [← List.singleton_append, ← List.append_assoc, List.mem_append]
    exact hmem.imp_left (@hnote p)

lemma subset_note (paths kept : List Path) : kept ⊆ paths.foldl note kept := by
  induction paths generalizing kept with
  | nil => simp
  | cons path paths ih =>
    refine List.Subset.trans (fun p hp => ?_) (ih (note kept path))
    unfold note
    split <;> simp [hp]

/-- Every path that is noted is there by some spelling. -/
lemma exists_same_note {paths kept : List Path} {p : Path} (h : p ∈ paths) :
    ∃ q ∈ paths.foldl note kept, q.same p = true := by
  induction paths generalizing kept with
  | nil => cases h
  | cons path paths ih =>
    rcases List.mem_cons.1 h with rfl | hmem
    · by_cases hany : kept.any (·.same p) = true
      · obtain ⟨q, hq, hsame⟩ := List.any_eq_true.1 hany
        rw [List.foldl_cons, note, if_pos hany]
        exact ⟨q, subset_note paths kept hq, hsame⟩
      · rw [List.foldl_cons, note, if_neg hany]
        exact ⟨p, subset_note paths _ (by simp), p.same_refl⟩
    · exact ih hmem

lemma pairwise_note {paths kept : List Path}
    (h : kept.Pairwise fun p q => p.same q = false) :
    (paths.foldl note kept).Pairwise fun p q => p.same q = false := by
  induction paths generalizing kept with
  | nil => exact h
  | cons path paths ih =>
    refine ih ?_
    unfold note
    split
    · exact h
    next hany =>
    refine List.pairwise_append.2 ⟨h, List.pairwise_singleton _ _, fun p hp q hq => ?_⟩
    obtain rfl : q = path := by simpa using hq
    rw [Bool.not_eq_true, List.any_eq_false] at hany
    simpa using hany p hp

end Path

lemma Draft.touched_touch (d : Draft) (path : Path) :
    (d.touch path).touched = Path.note d.touched path := by
  unfold touch hasTouched Path.note
  split <;> rfl

/-! ## The order of inclusion -/

namespace Source

/-- The files that some segments of a source include, in the order in which they are met: behind
each file come those that it includes itself. -/
inductive Inclusions (tree : FileTree) : Source → List Segment → List Path → Prop
  | nil {s : Source} : Inclusions tree s [] []
  | other {s : Source} {segment : Segment} {rest : List Segment} {paths : List Path}
      (hother : segment.isInclusion = false) (hrest : Inclusions tree s rest paths) :
      Inclusions tree s (segment :: rest) paths
  | inclusion {s : Source} {left right : Bool} {name text : List Char} {target : Path}
      {rest : List Segment} {inner paths : List Path}
      (hresolve : Path.resolveInclude name s.workdir s.rootdir = .ok target)
      (hread : tree.readText target = .ok text)
      (hinner : Inclusions tree (s.included target text) (segments text) inner)
      (hrest : Inclusions tree s rest paths) :
      Inclusions tree s (.inclusion left name right :: rest) (target :: inner ++ paths)

/-- Segments include one list of files only. -/
theorem Inclusions.unique {tree : FileTree} {s : Source} {rest : List Segment}
    {paths other : List Path} (h : Inclusions tree s rest paths)
    (k : Inclusions tree s rest other) : other = paths := by
  induction h generalizing other with
  | nil =>
    cases k
    rfl
  | other hother _ ih =>
    cases k with
    | other _ hrest => exact ih hrest
    | inclusion => cases hother
  | inclusion hresolve hread _ _ ihinner ih =>
    cases k with
    | other hother => cases hother
    | @inclusion _ _ _ _ text' target' _ inner' paths' hresolve' hread' hinner' hrest' =>
      rw [hresolve] at hresolve'
      cases hresolve'
      rw [hread] at hread'
      cases hread'
      rw [ihinner hinner', ih hrest']

variable {tree : FileTree} {s : Source}

/-- What some segments include is what an include among them names, or what is reached from
there. -/
lemma Inclusions.mem_iff {rest : List Segment} {paths : List Path}
    (h : Inclusions tree s rest paths) {p : Path} :
    p ∈ paths ↔ ∃ left name right target text, .inclusion left name right ∈ rest ∧
      Path.resolveInclude name s.workdir s.rootdir = .ok target ∧
      tree.readText target = .ok text ∧
      ∃ t, Reaches tree (s.included target text) t ∧ t.file = some p := by
  induction h with
  | nil => simp
  | @other s segment rest paths hother _ ih =>
    rw [ih]
    have hnot : ∀ left name right, Segment.inclusion left name right ≠ segment := by
      rintro left name right rfl
      cases hother
    simp [hnot]
  | @inclusion s left right name text target rest inner paths hresolve hread _ _ ihinner ih =>
    constructor
    · intro hp
      rcases List.mem_append.1 hp with hp | hp
      · refine ⟨left, name, right, target, text, List.mem_cons_self, hresolve, hread, ?_⟩
        rcases List.mem_cons.1 hp with rfl | hp
        · exact ⟨_, .refl, rfl⟩
        · obtain ⟨_, _, _, _, _, hsegment, hresolve', hread', t, ht, hfile⟩ := ihinner.1 hp
          exact ⟨t, ht.head (.mk hsegment hresolve' hread'), hfile⟩
      · obtain ⟨left', name', right', target', text', hsegment, hrest⟩ := ih.1 hp
        exact ⟨left', name', right', target', text', List.mem_cons_of_mem _ hsegment, hrest⟩
    · rintro ⟨left', name', right', target', text', hsegment, hresolve', hread', t, ht, hfile⟩
      rcases List.mem_cons.1 hsegment with hhead | hsegment
      · cases hhead
        rw [hresolve] at hresolve'
        cases hresolve'
        rw [hread] at hread'
        cases hread'
        refine List.mem_append_left _ ?_
        rcases Relation.ReflTransGen.cases_head ht with rfl | ⟨u, hincludes, ht⟩
        · cases hfile
          exact List.mem_cons_self
        · obtain ⟨hsegment, hresolve', hread'⟩ := hincludes
          exact List.mem_cons_of_mem _
            (ihinner.2 ⟨_, _, _, _, _, hsegment, hresolve', hread', t, ht, hfile⟩)
      · exact List.mem_append_right _
          (ih.2 ⟨left', name', right', target', text', hsegment, hresolve', hread', t, ht, hfile⟩)

/-- **The files that a source includes** are those of the sources that are reached from it. -/
theorem Inclusions.mem_iff_reached {paths : List Path}
    (h : Inclusions tree s (segments s.text) paths) {p : Path} :
    p ∈ paths ↔ ∃ t, Relation.TransGen (Includes tree) s t ∧ t.file = some p := by
  rw [h.mem_iff]
  constructor
  · rintro ⟨_, _, _, _, _, hsegment, hresolve, hread, t, ht, hfile⟩
    exact ⟨t, .head' (.mk hsegment hresolve hread) ht, hfile⟩
  · rintro ⟨t, ht, hfile⟩
    obtain ⟨u, hincludes, ht⟩ := Relation.TransGen.head'_iff.1 ht
    obtain ⟨hsegment, hresolve, hread⟩ := hincludes
    exact ⟨_, _, _, _, _, hsegment, hresolve, hread, t, ht, hfile⟩

/-! ## What a compile notes -/

/-- What following an include notes: the file that it names, and the files included from there. -/
def Notes (tree : FileTree) (s : Source)
    (follow : List Char → Position → Draft → Except TemplateError Draft) : Prop :=
  ∀ name here d d', follow name here d = .ok d' → ∃ target text inner,
    Path.resolveInclude name s.workdir s.rootdir = .ok target ∧
    tree.readText target = .ok text ∧
    Inclusions tree (s.included target text) (segments text) inner ∧
    d'.touched = (target :: inner).foldl Path.note d.touched

/-- Performing segments notes the files that they include, in their order. -/
lemma perform_touched {follow : List Char → Position → Draft → Except TemplateError Draft}
    (hf : Notes tree s follow) {lexemes : List Lexeme} {here : Position} {c : Cursor}
    {d d' : Draft} (h : s.perform follow here c d lexemes = .ok d') :
    ∃ included, Inclusions tree s (lexemes.map (·.segment)) included ∧
      d'.touched = included.foldl Path.note d.touched := by
  induction lexemes generalizing here c d with
  | nil =>
    cases h
    exact ⟨[], .nil, by simp [Draft.calm]⟩
  | cons lexeme rest ih =>
    obtain ⟨segment, n⟩ := lexeme
    cases segment <;> simp only [perform] at h
    case literal text =>
      obtain ⟨included, hincluded, htouched⟩ := ih h
      exact ⟨included, .other rfl hincluded, htouched⟩
    case region kind left code right =>
      obtain ⟨included, hincluded, htouched⟩ := ih h
      exact ⟨included, .other rfl hincluded, by simpa [Draft.calm] using htouched⟩
    case inclusion left name right =>
      split at h
      · cases h
      next entered hentered =>
      obtain ⟨target, text, inner, hresolve, hread, hinner, hentered⟩ := hf _ _ _ _ hentered
      obtain ⟨included, hincluded, htouched⟩ := ih h
      refine ⟨target :: inner ++ included, .inclusion hresolve hread hinner hincluded, ?_⟩
      rw [List.foldl_append, htouched]
      simpa [Draft.calm] using congrArg (included.foldl Path.note) hentered
    case unclosed => cases h

/-- A source that is inlined notes the files that it includes. -/
lemma inline_touched {depth : Nat} {chain : List Path} {d d' : Draft}
    (h : inline tree depth chain s d = .ok d') :
    ∃ included, Inclusions tree s (segments s.text) included ∧
      d'.touched = included.foldl Path.note d.touched := by
  induction depth generalizing chain s d d' with
  | zero =>
    refine perform_touched (fun name here e e' he => ?_) h
    unfold refuse at he
    split at he <;> cases he
  | succ depth ih =>
    refine perform_touched (fun name here e e' he => ?_) h
    obtain ⟨target, text, after, hresolve, -, hread, hinner, rfl⟩ := s.enter_eq_ok.1 he
    obtain ⟨inner, hincluded, htouched⟩ := ih hinner
    refine ⟨target, text, inner, hresolve, hread, hincluded, ?_⟩
    have hbefore : ((e.flushText.touch target).pushWorkdir
        (s.included target text).workdir).touched = Path.note e.touched target := by
      rw [← e.touched_flushText, ← Draft.touched_touch]
      rfl
    rw [List.foldl_cons, ← hbefore]
    exact htouched

variable {accepts : String → Program → Except TemplateError Unit} {c : Compiled}

/-- A compile notes the file of the source and then those that it includes. -/
theorem compile_touched (h : s.compile accepts tree = .ok c) :
    ∃ included, Inclusions tree s (segments s.text) included ∧
      c.paths = (s.file.toList ++ included).foldl Path.note [] := by
  obtain ⟨d, hinline, -, rfl⟩ := s.compile_eq_ok.1 h
  obtain ⟨included, hincluded, htouched⟩ := inline_touched hinline
  refine ⟨included, hincluded, ?_⟩
  have hstart : s.opening.touched = s.file.toList.foldl Path.note [] := by
    rw [opening_eq]
    cases s.file <;> rfl
  rw [List.foldl_append, ← hstart]
  exact htouched

/-- The file of a source that compiles is the first of its paths. -/
lemma file_mem_paths (h : s.compile accepts tree = .ok c) {file : Path}
    (hfile : s.file = some file) : file ∈ c.paths := by
  obtain ⟨included, -, hpaths⟩ := compile_touched h
  rw [hpaths, hfile, List.foldl_append]
  exact Path.subset_note included _ (by simp [Path.note])

/-! ## Files that are reached -/

/-- What is reached from a confined source is a file with a grounded path, and is confined. -/
lemma Confined.reached (hs : s.Confined) {t : Source}
    (ht : Relation.TransGen (Includes tree) s t) :
    t.Confined ∧ ∃ target, t.file = some target ∧ target.Grounded ∧
      tree.readText target = .ok t.text := by
  induction ht with
  | single hincludes =>
    obtain ⟨-, hresolve, hread⟩ := hincludes
    exact ⟨hs.included hresolve hread, _, rfl, hs.grounded_target hresolve, hread⟩
  | tail _ hincludes ih =>
    obtain ⟨hsegment, hresolve, hread⟩ := hincludes
    exact ⟨ih.1.included hresolve hread, _, rfl, ih.1.grounded_target hresolve, hread⟩

/-- A path of a compile that is not the file of the source is that of a file that it reaches. -/
lemma reached_of_mem_paths (h : s.compile accepts tree = .ok c) {p : Path} (hp : p ∈ c.paths)
    (hown : p ∉ s.file) :
    ∃ t, Relation.TransGen (Includes tree) s t ∧ t.file = some p := by
  obtain ⟨included, hincluded, hpaths⟩ := compile_touched h
  rw [hpaths] at hp
  have hmem := Path.note_subset hp
  rw [List.nil_append, List.mem_append] at hmem
  rcases hmem with hmem | hmem
  · exact absurd (by simpa using hmem) hown
  · exact hincluded.mem_iff_reached.1 hmem

/-- **The list is complete.**  What a source reaches is among the paths of its compile, by a
spelling of its own, and it is not the file of the source. -/
theorem exists_touched (h : s.compile accepts tree = .ok c) {t : Source}
    (ht : Relation.TransGen (Includes tree) s t) {target : Path} (htarget : t.file = some target) :
    ∃ q ∈ c.paths, q.same target = true ∧ q ∉ s.file := by
  obtain ⟨included, hincluded, hpaths⟩ := compile_touched h
  have hmem : target ∈ s.file.toList ++ included :=
    List.mem_append_right _ (hincluded.mem_iff_reached.2 ⟨t, ht, htarget⟩)
  obtain ⟨q, hq, hsame⟩ := Path.exists_same_note hmem
  refine ⟨q, hpaths ▸ hq, hsame, fun hown => ?_⟩
  have hapart := acyclic_of_compile h s t .refl ht q hown target htarget
  rw [hsame] at hapart
  cases hapart

/-! ## Two trees -/

/-- Performing does the same where each include that is followed can be followed to the same. -/
lemma perform_of_follow
    {follow follow' : List Char → Position → Draft → Except TemplateError Draft}
    {lexemes : List Lexeme}
    (hf : ∀ left name right, .inclusion left name right ∈ lexemes.map (·.segment) →
      ∀ here e e', follow name here e = .ok e' → follow' name here e = .ok e')
    {here : Position} {c : Cursor} {d d' : Draft}
    (h : s.perform follow here c d lexemes = .ok d') :
    s.perform follow' here c d lexemes = .ok d' := by
  induction lexemes generalizing here c d with
  | nil => exact h
  | cons lexeme rest ih =>
    have ih := @ih fun left name right hmem => hf left name right (List.mem_cons_of_mem _ hmem)
    obtain ⟨segment, n⟩ := lexeme
    cases segment <;> simp only [perform] at h ⊢
    case literal text => exact ih h
    case region kind left code right => exact ih h
    case inclusion left name right =>
      split at h
      · cases h
      next entered hentered =>
      rw [hf left name right (by simp) _ _ _ hentered]
      exact ih h
    case unclosed => cases h

/-- A source is inlined alike in a tree in which all that it reaches reads the same. -/
lemma inline_agree {other : FileTree} {depth n : Nat} {chain : List Path} {d d' : Draft}
    (hs : s.Confined) (hroom : Room other n chain)
    (hagree : ∀ t, Relation.TransGen (Includes tree) s t → ∀ target ∈ t.file,
      other.readText target = tree.readText target)
    (h : inline tree depth chain s d = .ok d') :
    inline other (n + 1) chain s d = .ok d' := by
  induction depth generalizing n chain s d d' with
  | zero =>
    refine perform_of_follow (fun left name right _ here e e' he => ?_) h
    unfold refuse at he
    split at he <;> cases he
  | succ depth ih =>
    refine perform_of_follow (fun left name right hsegment here e e' he => ?_) h
    obtain ⟨target, text, after, hresolve, hfresh, hread, hinner, rfl⟩ := s.enter_eq_ok.1 he
    have hincludes := Includes.mk hsegment hresolve hread
    have hread' : other.readText target = .ok text :=
      (hagree _ (.single hincludes) target rfl).trans hread
    obtain ⟨m, rfl, hroom'⟩ := hroom.enter (hs.grounded_target hresolve) hread' hfresh
    have hinner' := ih (hs.included hresolve hread) hroom'
      (fun t ht => hagree t (.head hincludes ht)) hinner
    exact s.enter_eq_ok.2 ⟨target, text, after, hresolve, hfresh, hread', hinner', rfl⟩

/-- A file of one tree that is the same in another. -/
def Keeps (tree other : FileTree) (p : Path) : Prop :=
  ∀ content, tree.readBytes p = .ok content → other.readBytes p = .ok content

/-- Where one spelling of a file is the same in two trees, all readable ones are. -/
lemma readText_agree {other : FileTree} {p q : Path} (hp : p.Grounded) (hq : q.Grounded)
    (hsame : q.same p = true) {text text' : List Char} (hreadp : tree.readText p = .ok text)
    (hreadq : tree.readText q = .ok text') (hkeeps : Keeps tree other q) :
    other.readText p = tree.readText p := by
  obtain ⟨content, hbytes, -⟩ := FileTree.readText_eq_ok.1 hreadp
  obtain ⟨content', hbytes', -⟩ := FileTree.readText_eq_ok.1 hreadq
  have hreadable := FileTree.readable_of_readBytes hp hbytes
  have hreadable' := FileTree.readable_of_readBytes hq hbytes'
  have hbytesp : tree.readBytes p = .ok content' := by
    rw [← tree.readBytes_same hreadable' hreadable hsame, hbytes']
  have hother : other.readBytes p = .ok content' := by
    rw [← other.readBytes_same hreadable' hreadable hsame, hkeeps content' hbytes']
  rw [FileTree.readText, FileTree.readText, hbytesp, hother]

/-- **A program depends on its paths only.**  A tree in which they have the same contents compiles
the source to the same. -/
theorem compile_agree (hs : s.Confined) (h : s.compile accepts tree = .ok c) {other : FileTree}
    (hkeeps : ∀ p ∈ c.paths, Keeps tree other p) : s.compile accepts other = .ok c := by
  have hagree : ∀ t, Relation.TransGen (Includes tree) s t → ∀ target ∈ t.file,
      other.readText target = tree.readText target := by
    intro t ht target htarget
    obtain ⟨-, target', htarget', hgrounded, hread⟩ := hs.reached ht
    obtain rfl : target = target' := Option.some.inj (htarget.symm.trans htarget')
    obtain ⟨q, hq, hsame, hown⟩ := exists_touched h ht htarget'
    obtain ⟨u, hu, hfile⟩ := reached_of_mem_paths h hq hown
    obtain ⟨-, q', hfile', hgrounded', hread'⟩ := hs.reached hu
    obtain rfl : q = q' := Option.some.inj (hfile.symm.trans hfile')
    exact readText_agree hgrounded hgrounded' hsame hread hread' (hkeeps q hq)
  obtain ⟨d, hinline, haccepts, rfl⟩ := s.compile_eq_ok.1 h
  exact s.compile_eq_ok.2
    ⟨d, inline_agree hs (room_start s.file.toList) hagree hinline, haccepts, rfl⟩

/-- **No included file is noted without need.**  In a tree in which one of them cannot be read and
the other paths have the same contents, the source does not compile. -/
theorem not_compile_of_unreadable (hs : s.Confined) (h : s.compile accepts tree = .ok c) {p : Path}
    (hp : p ∈ c.paths) (hown : p ∉ s.file) {other : FileTree}
    (hkeeps : ∀ q ∈ c.paths, q ≠ p → Keeps tree other q)
    (hunreadable : ∀ text, other.readText p ≠ .ok text) (c' : Compiled) :
    s.compile accepts other ≠ .ok c' := by
  intro h'
  obtain ⟨t, ht, hfile⟩ := reached_of_mem_paths h hp hown
  obtain ⟨u, hu, hincludes⟩ := Relation.TransGen.tail'_iff.1 ht
  -- no file before the unreadable one is a spelling of it, so all of them are met in the other tree
  have hreaches : ∀ v, Reaches tree s v → Reaches tree v u → Reaches other s v := by
    intro v hv
    induction hv with
    | refl => exact fun _ => .refl
    | @tail b v hb hincludesv ih =>
      intro hvu
      have hsv := Relation.TransGen.tail' hb hincludesv
      have hapart := acyclic_of_compile h v t hsv.to_reflTransGen (.tail' hvu hincludes)
      obtain ⟨-, target, htarget, hgrounded, hread⟩ := hs.reached hsv
      obtain ⟨q, hq, hsame, hq'⟩ := exists_touched h hsv htarget
      obtain ⟨w, hw, hfilew⟩ := reached_of_mem_paths h hq hq'
      obtain ⟨-, q', hfileq, hgroundedq, hreadq⟩ := hs.reached hw
      obtain rfl : q = q' := Option.some.inj (hfilew.symm.trans hfileq)
      have hne : q ≠ p := by
        rintro rfl
        have := hapart target htarget q hfile
        rw [Path.same_comm, hsame] at this
        cases this
      have hother : other.readText target = .ok v.text :=
        (readText_agree hgrounded hgroundedq hsame hread hreadq (hkeeps q hq hne)).trans hread
      refine (ih ?_).tail ?_
      · exact .head hincludesv hvu
      · obtain ⟨hsegment, hresolve, -⟩ := hincludesv
        cases htarget
        exact .mk hsegment hresolve hother
  obtain ⟨d, hinline, -, -⟩ := s.compile_eq_ok.1 h'
  obtain ⟨depth, chain, e, e', hinlined, -⟩ :=
    inline_reached hinline (fun p hp => by simpa using hp) (hreaches u hu .refl)
  obtain ⟨hsegment, hresolve, -⟩ := hincludes
  obtain ⟨-, text, -, -, hread, -⟩ := inline_followed hinlined hsegment hresolve
  cases hfile
  exact hunreadable text hread

/-- **The paths of a program are its dependencies.**  They are the file of the source and the files
that it includes, in the order in which they are met first and by the spelling of that place, each
file once.  In every tree in which they have the same contents the source compiles to the same, with
the same paths, and not in one that lacks one of the included files. -/
theorem compile_paths {origin : FileTree} (hcwd : origin.cwdPath.hasParentSegment = false)
    (hmade : Made origin s) (h : s.compile accepts tree = .ok c) :
    (∃ included, (∀ others, Inclusions tree s (segments s.text) others ↔ others = included) ∧
      c.paths = (s.file.toList ++ included).eraseDupsBy Path.same) ∧
    (c.paths.Pairwise fun p q => p.same q = false) ∧
    (∀ other : FileTree, (∀ p ∈ c.paths, Keeps tree other p) → s.compile accepts other = .ok c) ∧
    ∀ other : FileTree, ∀ p ∈ c.paths, p ∉ s.file → (∀ q ∈ c.paths, q ≠ p → Keeps tree other q) →
      (∀ text, other.readText p ≠ .ok text) → ∀ c', s.compile accepts other ≠ .ok c' := by
  have hs := hmade.confined hcwd
  obtain ⟨included, hincluded, hpaths⟩ := compile_touched h
  refine ⟨⟨included, fun others => ⟨hincluded.unique, ?_⟩, ?_⟩, ?_,
    fun other hkeeps => compile_agree hs h hkeeps, fun other p hp hown hkeeps hunreadable =>
      not_compile_of_unreadable hs h hp hown hkeeps hunreadable⟩
  · rintro rfl
    exact hincluded
  · rw [hpaths, Path.foldl_note]
    rfl
  · rw [hpaths]
    exact Path.pairwise_note List.Pairwise.nil

/-- A page with two files that include a third, each by its own spelling. -/
def sharing : FileTree where
  entries := [([['p']], .file (Utf8.encode "[<a][<b]".toList) 3),
    ([['a']], .file (Utf8.encode "1[</d//c]".toList) 1),
    ([['b']], .file (Utf8.encode "2[<d/./c]".toList) 2), ([['d']], .directory),
    ([['d'], ['c']], .file (Utf8.encode "!".toList) 5)]
  cwd := []

/-- The same files, written at other times, and one more. -/
def resharing : FileTree where
  entries := [([['d']], .directory), ([['d'], ['c']], .file (Utf8.encode "!".toList) 8),
    ([['d'], ['e']], .file (Utf8.encode "[<e]".toList) 9),
    ([['b']], .file (Utf8.encode "2[<d/./c]".toList) 7),
    ([['a']], .file (Utf8.encode "1[</d//c]".toList) 6),
    ([['p']], .file (Utf8.encode "[<a][<b]".toList) 3)]
  cwd := [['d']]

/-- The page of that tree. -/
def sharingPage : Source := ⟨"[<a][<b]".toList, ⟨['/']⟩, ⟨['/']⟩, some ⟨"/p".toList⟩⟩

theorem compile_paths_sharing :
    ∃ c, sharingPage.compile Program.acceptAll sharing = .ok c ∧
      c.paths = [⟨"/p".toList⟩, ⟨"/a".toList⟩, ⟨"/d//c".toList⟩, ⟨"/b".toList⟩] ∧
      (c.paths.Pairwise fun p q => p.same q = false) ∧
      sharingPage.compile Program.acceptAll resharing = .ok c := by
  have hmade : Made sharing sharingPage := by
    have hfile : ofFile sharing ⟨"/p".toList⟩ none = .ok sharingPage := by decide +kernel
    exact .file hfile
  have hcompile : sharingPage.compile Program.acceptAll sharing = .ok ⟨"/p",
      [.rootdir ⟨['/']⟩, .workdir ⟨['/']⟩, .workdir ⟨['/']⟩, .emit "1", .workdir ⟨"/d".toList⟩,
        .emit "!", .workdir ⟨['/']⟩, .workdir ⟨['/']⟩, .workdir ⟨['/']⟩, .emit "2",
        .workdir ⟨"/d".toList⟩, .emit "!", .workdir ⟨['/']⟩, .workdir ⟨['/']⟩],
      [⟨"/p".toList⟩, ⟨"/a".toList⟩, ⟨"/d//c".toList⟩, ⟨"/b".toList⟩]⟩ := by
    decide +kernel
  obtain ⟨-, hdistinct, hagree, -⟩ := compile_paths (by decide +kernel) hmade hcompile
  refine ⟨_, hcompile, rfl, hdistinct, hagree resharing fun p hp content hread => ?_⟩
  rw [← hread]
  have hsame : ∀ p ∈ ([⟨"/p".toList⟩, ⟨"/a".toList⟩, ⟨"/d//c".toList⟩, ⟨"/b".toList⟩] : List Path),
      resharing.readBytes p = sharing.readBytes p := by
    decide +kernel
  exact hsame p hp

end Source

end BracketTemplate
