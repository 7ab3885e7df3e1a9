import Mathlib
import BracketTemplate.Proofs.Path.Absolute
import BracketTemplate.Script.Startup

/-!
# Which files scripts open

A script opens files by asking its host to.  `Outcome.Opens` follows all ways that an outcome can go
on, whatever it is answered, and says which files it may ask to open, and whether it may have
results without having asked.

The functions that take the name of a file open what the name stands for within the root, or raise
an error; without a name they use a file that is open already (`opens_within`).  What a name stands
for is decided by its spelling as a whole: `Within` says of the path that is handed on that it lies
below the root without a segment `..`.  The system sees of it what is in front of a zero character,
so that `..` and a zero open the directory above the root.

There is a gap.  A number is taken as a name too, and only the function that opens files looks at
its text; the other ones hand it on as it is, so that it is found in the current directory of the
process (`opens_number`).
-/

namespace BracketTemplate.Script

variable {α β : Type}

/-! ## Asking for files -/

/-- Whatever an outcome is answered on its way, it asks for allowed files only; without having asked
for any it has results only if that is `free`. -/
def Outcome.Opens (allowed : Path → Prop) (free : Prop) : Outcome α → Prop
  | .done _ _ => free
  | .fail _ _ => True
  | .call _ _ _ _ next => ∀ r h, (next r h).Opens allowed free
  | .enter _ _ next => ∀ r h, (next r h).Opens allowed free
  | .guard _ _ _ _ next => ∀ r h, (next r h).Opens allowed free
  | .control _ _ next => ∀ r h, (next r h).Opens allowed free
  | .ask (.openFile path _) _ next => allowed path ∧ ∀ r h, (next r h).Opens allowed True
  | .ask _ _ next => ∀ r h, (next r h).Opens allowed free

namespace Outcome

variable {allowed wider : Path → Prop} {free other : Prop} {o : Outcome α}

/-- Files that are allowed stay so, and so do results. -/
lemma Opens.mono (h : o.Opens allowed free) (hallowed : ∀ path, allowed path → wider path)
    (hfree : free → other) : o.Opens wider other := by
  induction o generalizing free other with
  | done _ _ => exact hfree h
  | fail _ _ => trivial
  | call _ _ _ _ next ih => exact fun r heap => ih r heap (h r heap) hfree
  | enter _ _ next ih => exact fun r heap => ih r heap (h r heap) hfree
  | guard _ _ _ _ next ih => exact fun r heap => ih r heap (h r heap) hfree
  | control _ _ next ih => exact fun r heap => ih r heap (h r heap) hfree
  | ask request _ next ih =>
    cases request
    case openFile path mode => exact ⟨hallowed path h.1, fun r heap => ih r heap (h.2 r heap) id⟩
    all_goals exact fun r heap => ih r heap (h r heap) hfree

/-- What goes on after an outcome may ask for the same files.  Only where the outcome may be done
without having asked, it matters whether what goes on may. -/
lemma Opens.bind {f : α → Heap → Outcome β} (h : o.Opens allowed other)
    (hf : ∀ a heap, (f a heap).Opens allowed True)
    (hfree : other → ∀ a heap, (f a heap).Opens allowed free) : (o.bind f).Opens allowed free := by
  induction o generalizing free other with
  | done a heap => exact hfree h a heap
  | fail _ _ => trivial
  | call _ _ _ _ next ih => exact fun r heap => ih r heap (h r heap) hfree
  | enter _ _ next ih => exact fun r heap => ih r heap (h r heap) hfree
  | guard _ _ _ _ next ih => exact fun r heap => ih r heap (h r heap) hfree
  | control _ _ next ih => exact fun r heap => ih r heap (h r heap) hfree
  | ask request _ next ih =>
    cases request
    case openFile path mode => exact ⟨h.1, fun r heap => ih r heap (h.2 r heap) fun _ => hf⟩
    all_goals exact fun r heap => ih r heap (h r heap) hfree

/-- What handles the errors of an outcome may ask for the same files, too. -/
lemma Opens.onFail {f : Val → Heap → Outcome α} (h : o.Opens allowed free)
    (hf : ∀ e heap, (f e heap).Opens allowed free) : (o.onFail f).Opens allowed free := by
  induction o generalizing free with
  | done a heap => exact h
  | fail e heap => exact hf e heap
  | call _ _ _ _ next ih => exact fun r heap => ih r heap (h r heap) hf
  | enter _ _ next ih => exact fun r heap => ih r heap (h r heap) hf
  | guard _ _ _ _ next ih => exact fun r heap => ih r heap (h r heap) hf
  | control _ _ next ih => exact fun r heap => ih r heap (h r heap) hf
  | ask request _ next ih =>
    cases request
    case openFile path mode =>
      exact ⟨h.1, fun r heap => ih r heap (h.2 r heap) fun e heap =>
        (hf e heap).mono (fun _ => id) fun _ => trivial⟩
    all_goals exact fun r heap => ih r heap (h r heap) hf

end Outcome

section

variable {allowed : Path → Prop} {free : Prop}

lemma opens_bind {m : Act α} {f : α → Act β} {h : Heap} {other : Prop}
    (hm : (m h).Opens allowed other) (hf : ∀ a heap, (f a heap).Opens allowed True)
    (hfree : other → ∀ a heap, (f a heap).Opens allowed free) : ((m >>= f) h).Opens allowed free :=
  Outcome.Opens.bind hm hf hfree

/-- An act whose results do not matter can be followed by any that may have results anyway. -/
lemma opens_then (other : Prop) {m : Act α} {f : α → Act β} {h : Heap}
    (hm : (m h).Opens allowed other) (hf : ∀ a heap, (f a heap).Opens allowed free) :
    ((m >>= f) h).Opens allowed free :=
  opens_bind hm (fun a heap => (hf a heap).mono (fun _ => id) fun _ => trivial) fun _ => hf

/-- An act that asks for a file before it is done can be followed by any that asks for none. -/
lemma opens_after {m : Act α} {f : α → Act β} {h : Heap} (hm : (m h).Opens allowed False)
    (hf : ∀ a heap, (f a heap).Opens allowed True) : ((m >>= f) h).Opens allowed free :=
  opens_bind hm hf False.elim

/-- The text of a value may be a matter of a call, but opens nothing by itself. -/
lemma opens_toText (site : Site) (v : Val) (h : Heap) :
    (Operation.toText site v h).Opens allowed True := by
  refine opens_then True trivial fun fn heap => ?_
  split
  · trivial
  · refine opens_then True (fun r heap => trivial) fun r heap => ?_
    cases r.headD .nil <;> trivial

/-- Reporting an error opens nothing and has no results. -/
lemma opens_failReported (e : Val) (h : Heap) :
    (failReported (α := α) e h).Opens allowed free := by
  unfold failReported
  split
  · trivial
  · refine opens_then True ?_ fun text heap => trivial
    unfold reportOf
    split
    · trivial
    · exact opens_then _ (opens_toText _ _ _) fun text heap => trivial

/-- A function of the host opens what it opens before its errors are reported. -/
lemma opens_asHost {m : Act α} {h : Heap} (hm : (m h).Opens allowed free) :
    (m.asHost h).Opens allowed free :=
  hm.onFail fun e heap => opens_failReported e heap

end

namespace Files

/-! ## Names -/

/-- How a name is confined to a root, and what is opened by it.  The path that the name is spelled
as is the one that is handed on. -/
structure Within (root : Path) (name : String) (path : Path) : Prop where
  /-- The components of the path start with those of the root. -/
  startsWith : (named root name).startsWith root = true
  /-- It has no segment `..` but those of the root. -/
  noParent : .parent ∉ (named root name).components.drop root.components.length
  /-- The system opens it up to its first zero character. -/
  opened : path = untilZero (named root name)

/-- Segments `..` of a path stand behind its front. -/
lemma count_parent_components (p : Path) :
    p.components.count .parent = (Path.parts p.chars).count .parent := by
  rw [Path.components_eq, List.count_append, List.count_eq_zero.2 p.parent_not_mem_front, zero_add]

/-- A name without a segment `..` adds none to the root. -/
lemma count_parent_named (root : Path) {name : String}
    (h : (Path.ofString name).hasParentSegment = false) :
    (named root name).components.count .parent ≤ root.components.count .parent := by
  have hname : .parent ∉ Path.parts (Path.ofString name).chars := Path.hasParentSegment_eq_false.1 h
  rw [count_parent_components, count_parent_components]
  unfold named
  split
  · rw [List.count_eq_zero.2 hname]
    exact Nat.zero_le _
  · next hrelative =>
    rw [Path.parts_join (by simpa using hrelative), List.count_append, List.count_eq_zero.2 hname,
      add_zero]

/-- **A name is confined**: what it is spelled as lies within the root and is handed on, or it
fails. -/
lemma confine_cases (root : Path) (name : String) (h : Heap) :
    (confine root name h = .done (named root name) h ∧
      Within root name (untilZero (named root name))) ∨
      ∃ e heap, confine root name h = .fail e heap := by
  unfold confine
  rcases hcheck : (Path.ofString name).checkSegments with e | valid
  · exact .inr ⟨_, _, rfl⟩
  rcases hwithin : (named root name).ensureWithin root with e | within
  · exact .inr ⟨_, _, rfl⟩
  have hstarts := Path.ensureWithin_eq_ok.1 hwithin
  refine .inl ⟨rfl, hstarts, ?_, rfl⟩
  -- the components behind those of the root have what `..` the whole has more than the root
  obtain ⟨rest, hrest⟩ := Path.startsWith_iff.1 hstarts
  have hcount := count_parent_named root (Path.checkSegments_eq_ok.1 hcheck).2
  rw [← hrest, List.drop_left, ← List.count_eq_zero]
  rw [← hrest, List.count_append] at hcount
  omega

/-- The name that a number is taken as. -/
def numberName? : Val → Option Path
  | .int i => some (Path.ofString (Val.intText i).text)
  | .float x => some (Path.ofString (Val.floatText x).text)
  | _ => none

/-- The name that a function takes from a value: for opening what the host takes for a text, for
the other functions only a text. -/
def nameOf? (f : IoFunction) (v : Val) : Option String :=
  match f, v with
  | .open, v => v.hostText.toOption
  | _, .str s => some s.text
  | _, _ => none

/-- A file that is opened by a value: the value gives a name, and what the name stands for lies
within the root. -/
def OpensName (f : IoFunction) (root : Path) (v : Val) (path : Path) : Prop :=
  ∃ name, nameOf? f v = some name ∧ Within root name path

/-- A file that is opened by a number, up to a first zero character like all others. -/
def OpensNumber (v : Val) (path : Path) : Prop :=
  ∃ handed, numberName? v = some handed ∧ path = untilZero handed

/-- The name in front of some arguments is confined when it is a text, and taken as it is when it is
a number. -/
lemma confinedName_cases {f : IoFunction} (hf : f ≠ .open) (a : Arguments) (h : Heap) :
    (∃ path, confinedName a h = .done (some path) h ∧
      (OpensName f h.root (a.get 1) (untilZero path) ∨ OpensNumber (a.get 1) (untilZero path))) ∨
    confinedName a h = .done none h ∨ ∃ e heap, confinedName a h = .fail e heap := by
  have hnone : ∀ {v}, a.get 1 = v → (∀ s, v ≠ .str s) → (∀ i, v ≠ .int i) → (∀ x, v ≠ .float x) →
      confinedName a h = .done none h := by
    rintro v hv hstr hint hfloat
    unfold confinedName
    rw [hv]
    cases v <;> first | rfl | simp_all
  rcases hv : a.get 1 with _ | _ | i | x | s
  case int =>
    refine .inl ⟨Path.ofString (Val.intText i).text, ?_, .inr ⟨_, rfl, rfl⟩⟩
    unfold confinedName
    rw [hv]
    rfl
  case float =>
    refine .inl ⟨Path.ofString (Val.floatText x).text, ?_, .inr ⟨_, rfl, rfl⟩⟩
    unfold confinedName
    rw [hv]
    rfl
  case str =>
    have hbind : confinedName a h =
        (confine h.root s.text h).bind fun path heap => .done (some path) heap := by
      unfold confinedName
      rw [hv]
      rfl
    have hname : nameOf? f (.str s) = some s.text := by
      unfold nameOf?
      split
      · exact absurd rfl hf
      · next heq => cases heq; rfl
      · next hstr => exact absurd rfl (hstr s)
    rcases confine_cases h.root s.text h with ⟨hpath, hwithin⟩ | ⟨e, heap, hfail⟩
    · exact .inl ⟨_, by rw [hbind, hpath]; rfl, .inl ⟨_, hname, hwithin⟩⟩
    · exact .inr (.inr ⟨e, heap, by rw [hbind, hfail]; rfl⟩)
  all_goals exact .inr (.inl (hnone hv (by simp) (by simp) (by simp)))

/-! ## Opening -/

section

variable {allowed : Path → Prop} {free : Prop} {h : Heap}

/-- An act that is done or fails at once goes on with what it gives. -/
lemma opens_bind_direct {m : Act α} {f : α → Act β}
    (hm : (∃ a, m h = .done a h ∧ (f a h).Opens allowed free) ∨ ∃ e heap, m h = .fail e heap) :
    ((m >>= f) h).Opens allowed free := by
  show ((m h).bind f).Opens allowed free
  rcases hm with ⟨a, hdone, hopens⟩ | ⟨e, heap, hfail⟩
  · rw [hdone]
    exact hopens
  · rw [hfail]
    trivial

lemma hostText_cases (a : Arguments) (n : Nat) (h : Heap) :
    (∃ text, a.hostText n h = .done text h ∧ (a.get n).hostText = .ok text) ∨
      ∃ e heap, a.hostText n h = .fail e heap := by
  unfold Arguments.hostText Arguments.converted
  cases (a.get n).hostText with
  | ok text => exact .inl ⟨text, rfl, rfl⟩
  | error wording => exact .inr ⟨_, _, rfl⟩

/-- Opening a file asks for that file and has no results before. -/
lemma opens_openOrFail {path : Path} (hpath : allowed (untilZero path)) (mode : Mode) :
    (openOrFail path mode h).Opens allowed free := by
  refine ⟨hpath, fun r heap => ?_⟩
  cases r <;> trivial

/-- The mode for opening is a text, or reading when there is none. -/
lemma opens_mode {a : Arguments} {f : String → Act α}
    (hf : ∀ mode, (f mode h).Opens allowed free) :
    ((if a.isBlank 2 then pure "r" >>= f else a.hostText 2 >>= f) h).Opens allowed free := by
  split
  · exact hf "r"
  · exact opens_bind_direct ((hostText_cases a 2 h).imp_left fun ⟨mode, hmode, _⟩ =>
      ⟨mode, hmode, hf mode⟩)

/-- Opening by name and mode. -/
lemma opens_open (a : Arguments) :
    («open» a h).Opens (OpensName .open h.root (a.get 1)) False := by
  refine opens_bind_direct ((hostText_cases a 1 h).imp_left ?_)
  rintro ⟨name, hdone, hname⟩
  refine ⟨name, hdone, opens_mode fun mode => ?_⟩
  refine opens_bind_direct (.inl ⟨h.root, rfl, ?_⟩)
  refine opens_bind_direct ((confine_cases h.root name h).imp_left ?_)
  rintro ⟨hpath, hwithin⟩
  refine ⟨_, hpath, ?_⟩
  cases Mode.ofText? (utf8 mode) with
  | none => trivial
  | some mode =>
    refine ⟨⟨name, by rw [nameOf?, hname]; rfl, hwithin⟩, fun r heap => ?_⟩
    cases r <;> trivial

/-- What a name, or no name, in front of the arguments is used for. -/
lemma opens_confinedName {f : IoFunction} (hf : f ≠ .open) {a : Arguments} {k : Option Path → Act α}
    (hname : ∀ path,
      (OpensName f h.root (a.get 1) (untilZero path) ∨ OpensNumber (a.get 1) (untilZero path)) →
      (k (some path) h).Opens allowed free)
    (hnone : (k none h).Opens allowed free) : ((confinedName a >>= k) h).Opens allowed free := by
  rcases confinedName_cases hf a h with ⟨path, hpath, hallowed⟩ | hdone | hfail
  · exact opens_bind_direct (.inl ⟨_, hpath, hname path hallowed⟩)
  · exact opens_bind_direct (.inl ⟨_, hdone, hnone⟩)
  · exact opens_bind_direct (.inr hfail)

lemma fail_fails (a : Arguments) (n : Nat) (wording : Bytes) :
    ∃ e heap, (a.fail n wording : Act α) h = .fail e heap := by
  unfold Arguments.fail
  dsimp only
  split <;> split <;> exact ⟨_, _, rfl⟩

lemma failType_fails (a : Arguments) (n : Nat) (expected : String) :
    ∃ e heap, (a.failType n expected : Act α) h = .fail e heap :=
  fail_fails a n _

/-- A file is used that is open already, and an argument that is no file is refused. -/
lemma opens_openFile {a : Arguments} (free : Prop) (hfile : (∃ id, a.get 1 = .file id) → free) :
    (openFile a h).Opens allowed free := by
  unfold openFile anyFile
  cases hv : a.get 1 with
  | file id =>
    refine opens_bind_direct (.inl ⟨id, rfl, ?_⟩)
    refine opens_bind_direct (.inl ⟨_, rfl, ?_⟩)
    split
    · exact hfile ⟨id, hv⟩
    · trivial
  | _ => exact opens_bind_direct (.inr (failType_fails _ _ _))

/-- Naming a file to read from or to write to. -/
lemma opens_redirect {f : IoFunction} (hf : f ≠ .open) (a : Arguments) (mode : Mode)
    (current : Heap → Nat) (use : Heap → Nat → Heap) :
    (redirect a mode current use h).Opens
      (fun path => OpensName f h.root (a.get 1) path ∨ OpensNumber (a.get 1) path)
      (a.isBlank 1 = true ∨ ∃ id, a.get 1 = .file id) := by
  refine opens_confinedName hf (fun path hpath => ?_) ?_
  · split
    · exact opens_after (opens_openOrFail hpath mode) fun id heap => trivial
    · next hblank => exact .inl (by simpa using hblank)
  · split
    · exact opens_bind (opens_openFile (∃ id, a.get 1 = .file id) id)
        (fun id heap => trivial) fun hfile id heap => .inr hfile
    · next hblank => exact .inl (by simpa using hblank)

/-- A function that goes through lines has been made without asking for files. -/
lemma opens_linesOf (a : Arguments) (id : Nat) (closes : Bool) :
    (linesOf a id closes h).Opens allowed True := by
  unfold linesOf
  dsimp only
  split
  · obtain ⟨e, heap, hfail⟩ := fail_fails (α := PUnit) (h := h) a 252 (utf8 "too many arguments")
    exact opens_bind_direct (.inr ⟨e, heap, hfail⟩)
  · trivial

/-- Going through the lines of a named file, or of the one that is read from. -/
lemma opens_lines (a : Arguments) :
    (lines a h).Opens
      (fun path => OpensName .lines h.root (a.get 1) path ∨ OpensNumber (a.get 1) path)
      (a.isBlank 1 = true) := by
  refine opens_confinedName (f := .lines) (by decide) (fun path hpath => ?_) ?_
  · exact opens_after (opens_openOrFail hpath _) fun id heap =>
      opens_then _ (opens_linesOf _ id true) fun v heap => trivial
  · split
    · exact opens_bind_direct (.inr (failType_fails _ _ _))
    · next hblank =>
      refine opens_bind_direct (.inl ⟨_, rfl, ?_⟩)
      refine opens_then _ (opens_openFile True fun _ => trivial) fun id heap => ?_
      refine opens_then _ (opens_linesOf _ id false) fun v heap => ?_
      show a.isBlank 1 = true
      simpa using hblank

/-- Only functions other than `open` take a number as it is, or do without a name. -/
lemma opens_named {f : IoFunction} (hf : f ≠ .open) {root : Path} {v : Val} {blank : Prop}
    {o : Outcome α}
    (ho : o.Opens (fun path => OpensName f root v path ∨ OpensNumber v path) blank) :
    o.Opens (fun path => OpensName f root v path ∨ f ≠ .open ∧ OpensNumber v path)
      (f ≠ .open ∧ blank) :=
  ho.mono (fun _ => Or.imp_right (And.intro hf)) (And.intro hf)

end

/-- **The functions that take a name open what it stands for within the root**, and without a name
they use a file that is open already; otherwise they fail.  All but one of them take a number as the
name that it is written as, wherever that is. -/
theorem opens_within {f : IoFunction} (hf : f ∈ [IoFunction.open, .lines, .input, .output])
    (a : Arguments) (h : Heap) :
    (run f a h).Opens
      (fun path => OpensName f h.root (a.get 1) path ∨ f ≠ .open ∧ OpensNumber (a.get 1) path)
      (f ≠ .open ∧ (a.isBlank 1 = true ∨ ∃ id, a.get 1 = .file id)) := by
  simp only [List.mem_cons, List.not_mem_nil, or_false] at hf
  obtain rfl | rfl | rfl | rfl := hf
  · exact opens_asHost ((opens_open a).mono (fun _ => .inl) False.elim)
  · exact opens_asHost (opens_named (by decide) ((opens_lines a).mono (fun _ => id) .inl))
  · exact opens_asHost (opens_named (by decide) (opens_redirect (by decide) a _ _ _))
  · exact opens_asHost (opens_named (by decide) (opens_redirect (by decide) a _ _ _))

/-- The lines of a named file are those of the file below the root, and of no other. -/
theorem opens_within_data :
    IoFunction.lines ∈ [IoFunction.open, .lines, .input, .output] ∧
      (run .lines ⟨{}, [.ofString "data"]⟩ (Heap.initial ⟨['/', 's']⟩)).Opens
        (fun path => path = Path.ofString "/s/data") False := by
  refine ⟨by simp, (opens_within (by simp) ⟨{}, [.ofString "data"]⟩
    (Heap.initial ⟨['/', 's']⟩)).mono (fun path hpath => ?_) fun hfree => ?_⟩
  · rcases hpath with ⟨name, hname, hwithin⟩ | ⟨-, handed, hnumber, -⟩
    · have hdata : nameOf? .lines (.ofString "data") = some "data" := by decide
      obtain rfl : "data" = name := Option.some.inj (hdata.symm.trans hname)
      rw [hwithin.opened]
      decide
    · cases hnumber
  · rcases hfree.2 with hblank | ⟨id, hfile⟩
    · cases hblank
    · cases hfile

/-- **A number is a name that is not confined.**  The lines of five are those of a file in the
current directory of the process, wherever the root is. -/
theorem opens_number :
    ∃ heap next, run .lines ⟨{}, [.int 5]⟩ (Heap.initial ⟨['/', 's']⟩) =
        .ask (.openFile ⟨['5']⟩ .read) heap next ∧
      (⟨['5']⟩ : Path).startsWith (Heap.initial ⟨['/', 's']⟩).root = false :=
  ⟨_, _, rfl, rfl⟩

-- A zero character ends what is opened, not what is looked at.
example : ∃ heap next, run .open ⟨{}, [.ofString "..\x00"]⟩ (Heap.initial ⟨['/', 's']⟩) =
    .ask (.openFile (Path.ofString "/s/..") .read) heap next := ⟨_, _, rfl⟩

end Files

end BracketTemplate.Script
