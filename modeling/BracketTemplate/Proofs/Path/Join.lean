import Mathlib
import BracketTemplate.Path.Confined

/-!
# Joining and leaving directories

What joining, taking the parent and making absolute do to the components of a path.  Behind the
front of a path its components are those of its segments (`parts`), and a slash cuts them:
`parts_append` is the one fact about spelling that everything else here rests on.

`Grounded` paths are the ones that programs work with once they are checked: absolute, and without a
segment `..`.  They stay grounded under all three operations, and their components are the root and
names only.
-/

namespace BracketTemplate

lemma splitAt_append (sep : Char) (text rest : List Char) :
    splitAt sep (text ++ sep :: rest) = splitAt sep text ++ splitAt sep rest := by
  induction text with
  | nil => simp [splitAt]
  | cons c text ih =>
    have hne := splitAt_ne_nil sep text
    by_cases h : c = sep
    · simp [splitAt, h, ih]
    · obtain ⟨piece, more, hsplit⟩ := List.exists_cons_of_ne_nil hne
      simp [splitAt, h, ih, hsplit]

/-- A text without the separator is one piece. -/
lemma splitAt_of_not_mem {sep : Char} {text : List Char} (h : sep ∉ text) :
    splitAt sep text = [text] := by
  induction text with
  | nil => rfl
  | cons c text ih =>
    simp only [List.mem_cons, not_or] at h
    simp [splitAt, Ne.symm h.1, ih h.2]

namespace Path

/-! ## Components of a spelling -/

/-- The components that the segments of a spelling stand for. -/
def parts (text : List Char) : List Component := (splitAt '/' text).filterMap Component.ofSegment

lemma components_eq (p : Path) : p.components = p.front ++ parts p.chars := rfl

@[simp] lemma parts_nil : parts [] = [] := rfl

/-- A slash cuts the components. -/
theorem parts_append (text rest : List Char) :
    parts (text ++ '/' :: rest) = parts text ++ parts rest := by
  rw [parts, splitAt_append, List.filterMap_append]
  rfl

@[simp] lemma parts_slash (rest : List Char) : parts ('/' :: rest) = parts rest :=
  parts_append [] rest

lemma parts_concat_slash (text : List Char) : parts (text ++ ['/']) = parts text := by
  rw [parts_append, parts_nil, List.append_nil]

lemma parts_segment {segment : List Char} (h : '/' ∉ segment) :
    parts segment = (Component.ofSegment segment).toList := by
  rw [parts, splitAt_of_not_mem h]
  cases hc : Component.ofSegment segment <;> simp [hc]

lemma parts_dropWhile (text : List Char) : parts (text.dropWhile (· = '/')) = parts text := by
  induction text with
  | nil => rfl
  | cons c text ih =>
    by_cases h : c = '/'
    · subst h
      simpa using ih
    · simp [h]

/-- No segment stands for the root or for a leading dot. -/
lemma ofSegment_eq_some {segment : List Char} {component : Component}
    (h : Component.ofSegment segment = some component) :
    component = .parent ∨ component = .name segment := by
  unfold Component.ofSegment at h
  split at h <;> simp_all

lemma ofSegment_of_blank {segment : List Char} (hblank : segment = [] ∨ segment = ['.']) :
    Component.ofSegment segment = none := by
  rcases hblank with rfl | rfl <;> rfl

lemma ofSegment_of_ne {segment : List Char} (hblank : ¬(segment = [] ∨ segment = ['.']))
    (hdots : segment ≠ ['.', '.']) : Component.ofSegment segment = some (.name segment) := by
  rw [not_or] at hblank
  unfold Component.ofSegment
  split <;> simp_all

lemma mem_parts {text : List Char} {component : Component} (h : component ∈ parts text) :
    component = .parent ∨
      ∃ segment, component = .name segment ∧ '/' ∉ segment ∧
        Component.ofSegment segment = some component := by
  obtain ⟨segment, hmem, hsegment⟩ := List.mem_filterMap.1 h
  rcases ofSegment_eq_some hsegment with rfl | rfl
  · exact .inl rfl
  · exact .inr ⟨segment, rfl, not_mem_of_mem_splitAt hmem, hsegment⟩

/-- Parts without a segment `..` are names. -/
lemma parts_eq_names {text : List Char} (h : .parent ∉ parts text) :
    ∃ names : List (List Char), parts text = names.map .name := by
  have hname : ∀ component ∈ parts text, ∃ segment, Component.name segment = component := by
    intro component hmem
    rcases mem_parts hmem with rfl | ⟨segment, rfl, -⟩
    · exact absurd hmem h
    · exact ⟨segment, rfl⟩
  have hrange : parts text ∈ Set.range (List.map Component.name) := by
    rw [Set.range_list_map]
    exact hname
  obtain ⟨names, hnames⟩ := hrange
  exact ⟨names, hnames.symm⟩

/-! ## Grounded paths -/

/-- An absolute path without a segment `..`. -/
structure Grounded (p : Path) : Prop where
  absolute : p.isAbsolute = true
  noParent : .parent ∉ parts p.chars

lemma components_of_isAbsolute {p : Path} (h : p.isAbsolute = true) :
    p.components = .root :: parts p.chars := by
  simp [components_eq, front, h]

lemma Grounded.components {p : Path} (h : p.Grounded) :
    ∃ names : List (List Char), p.components = .root :: names.map .name := by
  obtain ⟨names, hnames⟩ := parts_eq_names h.noParent
  exact ⟨names, by rw [components_of_isAbsolute h.absolute, hnames]⟩

lemma parent_not_mem_front (p : Path) : .parent ∉ p.front := by
  unfold front
  split
  · simp
  · split <;> simp

/-- The test for `..` looks at the segments only. -/
lemma hasParentSegment_eq_false {p : Path} :
    p.hasParentSegment = false ↔ .parent ∉ parts p.chars := by
  simp [hasParentSegment, components_eq, parent_not_mem_front]

/-! ## Joining -/

/-- A relative path goes behind a slash. -/
lemma join_chars {p q : Path} (hp : p.chars ≠ []) (hq : q.isAbsolute = false) :
    ∃ front, (p.join q).chars = front ++ '/' :: q.chars ∧ parts front = parts p.chars := by
  unfold join
  simp only [hq, Bool.false_eq_true, if_false]
  split
  · next h =>
    have hlast : p.chars.getLast? = some '/' := by simpa [hp] using h
    obtain ⟨front, hfront⟩ := List.getLast?_eq_some_iff.1 hlast
    refine ⟨front, ?_, ?_⟩
    · simp [hfront]
    · rw [hfront, parts_concat_slash]
  · exact ⟨p.chars, rfl, rfl⟩

lemma parts_join {p q : Path} (hq : q.isAbsolute = false) :
    parts (p.join q).chars = parts p.chars ++ parts q.chars := by
  by_cases hp : p.chars = []
  · simp [join, hq, hp]
  · obtain ⟨front, hjoin, hfront⟩ := join_chars hp hq
    rw [hjoin, parts_append, hfront]

lemma isAbsolute_join {p : Path} (hp : p.isAbsolute = true) (q : Path) :
    (p.join q).isAbsolute = true := by
  cases hq : q.isAbsolute with
  | true => simp [join, hq]
  | false =>
    obtain ⟨rest, hrest⟩ := List.head?_eq_some_iff.1 (of_decide_eq_true hp)
    unfold join
    simp only [hq, Bool.false_eq_true, if_false, hrest]
    split <;> rfl

/-- What is joined to an absolute path goes behind its components. -/
lemma components_join {p q : Path} (hp : p.isAbsolute = true) (hq : q.isAbsolute = false) :
    (p.join q).components = p.components ++ parts q.chars := by
  rw [components_of_isAbsolute (isAbsolute_join hp q), components_of_isAbsolute hp, parts_join hq]
  rfl

lemma Grounded.join {p q : Path} (hp : p.Grounded) (hq : .parent ∉ parts q.chars) :
    (p.join q).Grounded := by
  cases habsolute : q.isAbsolute with
  | true => simpa [Path.join, habsolute] using Grounded.mk habsolute hq
  | false =>
    refine ⟨isAbsolute_join hp.absolute q, ?_⟩
    rw [parts_join habsolute, List.mem_append, not_or]
    exact ⟨hp.noParent, hq⟩

/-! ## The directory of a path -/

/-- Blank segments and segments `.` at the end stand for nothing. -/
lemma parts_dropBlank (text : List Char) : parts (dropBlank text).reverse = parts text.reverse := by
  induction text using dropBlank.induct with
  | case1 rest ih => rw [dropBlank, ih, List.reverse_cons, parts_concat_slash]
  | case2 => rfl
  | case3 rest ih =>
    rw [dropBlank, ih, List.reverse_cons, List.reverse_cons, List.append_assoc,
      List.singleton_append, parts_append, parts_segment (show '/' ∉ ['.'] by decide)]
    exact (List.append_nil _).symm
  | case4 other hslash hdot hboth => rw [dropBlank.eq_4 other hslash hdot hboth]

lemma exists_last_slash {text : List Char} (h : '/' ∈ text) :
    ∃ before behind, text = before ++ '/' :: behind ∧ '/' ∉ behind := by
  obtain ⟨behind, before, hreverse, hslash⟩ :=
    List.eq_append_cons_of_mem (List.mem_reverse.2 h)
  refine ⟨before.reverse, behind.reverse, ?_, by simpa using hslash⟩
  rw [← List.reverse_reverse text, hreverse]
  simp

lemma ofSegment_ne_nil {segment : List Char} {component : Component}
    (h : Component.ofSegment segment = some component) : segment ≠ [] := by
  rintro rfl
  cases h

/-- A segment that stands for something is not dropped. -/
lemma dropBlank_segment {segment : List Char} {component : Component}
    (h : Component.ofSegment segment = some component) (hslash : '/' ∉ segment)
    (rest : List Char) :
    dropBlank (segment.reverse ++ '/' :: rest) = segment.reverse ++ '/' :: rest ∧
      dropBlank segment.reverse = segment.reverse := by
  obtain ⟨c, more, hreverse⟩ :=
    List.exists_cons_of_ne_nil (List.reverse_ne_nil_iff.2 (ofSegment_ne_nil h))
  have hmem : ∀ d ∈ c :: more, d ≠ '/' := by
    rintro d hd rfl
    exact hslash (by rwa [← List.mem_reverse, hreverse])
  have hdot : c = '.' → more ≠ [] := by
    rintro rfl rfl
    rw [List.reverse_eq_iff.1 hreverse] at h
    cases h
  have hkept : ∀ tail : List Char, (tail = [] ∨ tail.head? = some '/') →
      dropBlank (c :: more ++ tail) = c :: more ++ tail := by
    intro tail htail
    have hc := hmem c (by simp)
    cases more with
    | nil =>
      have hc' : c ≠ '.' := fun hcdot => hdot hcdot rfl
      unfold dropBlank
      split <;> simp_all
    | cons d more =>
      have hd := hmem d (by simp)
      unfold dropBlank
      split <;> simp_all
  rw [hreverse]
  exact ⟨hkept _ (.inr rfl), by simpa using hkept [] (.inl rfl)⟩

/-- The directory of a path whose last segment stands for something has the components before it. -/
theorem parent?_segment {p : Path} (hp : p.isAbsolute = true) {segment : List Char}
    {component : Component} (hlast : p.segments.getLast? = some segment)
    (h : Component.ofSegment segment = some component) :
    ∃ dir, p.parent? = some dir ∧ dir.isAbsolute = true ∧
      parts p.chars = parts dir.chars ++ [component] := by
  have hmem : '/' ∈ p.chars := List.mem_of_head? (by simpa [isAbsolute] using hp)
  obtain ⟨before, behind, hcut, hbehind⟩ := exists_last_slash hmem
  obtain rfl : behind = segment := by
    rw [segments, hcut, splitAt_append, splitAt_of_not_mem hbehind] at hlast
    simpa using hlast
  have hparts : parts p.chars = parts before ++ [component] := by
    rw [hcut, parts_append, parts_segment hbehind, h]
    rfl
  have hfront : p.frontLength = 1 := by simp [frontLength, front, hp]
  obtain ⟨c, more, hbody⟩ :=
    List.exists_cons_of_ne_nil (List.reverse_ne_nil_iff.2 (ofSegment_ne_nil h))
  have hkept := dropBlank_segment h hbehind
  have hchars : ∀ d ∈ behind.reverse, decide (d ≠ '/') = true := by
    intro d hd
    exact decide_eq_true fun hslash => hbehind (List.mem_reverse.1 (hslash ▸ hd))
  have hpast : ∀ rest : List Char, (behind.reverse ++ '/' :: rest).dropWhile (· ≠ '/') =
      '/' :: rest := by
    intro rest
    rw [List.dropWhile_append_of_pos hchars]
    rfl
  cases before with
  | nil =>
    refine ⟨⟨['/']⟩, ?_, rfl, by simpa using hparts⟩
    have hnone : behind.reverse.dropWhile (· ≠ '/') = [] := List.dropWhile_eq_nil_iff.2 hchars
    have hdrop : dropBlank behind.reverse = behind.reverse := (hkept []).2
    unfold parent?
    simp only [hfront, hcut, List.nil_append, List.drop_succ_cons, List.drop_zero, hdrop, hnone,
      List.take_succ_cons, List.take_zero, List.drop_nil]
    simp [hbody, dropBlank]
  | cons slash before =>
    obtain rfl : slash = '/' := by
      unfold isAbsolute at hp
      rw [hcut] at hp
      simpa using hp
    refine ⟨⟨'/' :: (dropBlank before.reverse).reverse⟩, ?_, rfl, ?_⟩
    · have hdrop := (hkept before.reverse).1
      unfold parent?
      simp only [hfront, hcut, List.cons_append, List.drop_succ_cons, List.drop_zero,
        List.reverse_append, List.reverse_cons, List.append_assoc, List.nil_append, hdrop, hpast,
        List.take_succ_cons, List.take_zero]
      simp [hbody]
    · have hdir : parts ('/' :: (dropBlank before.reverse).reverse) = parts before := by
        rw [parts_slash, parts_dropBlank, List.reverse_reverse]
      rw [hparts, parts_slash, ← hdir]

/-! ## Absolute spellings -/

/-- A path with components joined to it one by one. -/
def joinAll (built : Path) (components : List Component) : Path :=
  components.foldl (fun built component => built.join ⟨component.chars⟩) built

/-- What is joined to a grounded path component by component stays grounded, when the components are
those of a path without a segment `..`. -/
lemma Grounded.joinAll {built : Path} (hbuilt : built.Grounded) {components : List Component}
    {p : Path} (hsub : components ⊆ p.components) (hparent : p.hasParentSegment = false) :
    (built.joinAll components).Grounded := by
  induction components generalizing built with
  | nil => exact hbuilt
  | cons component components ih =>
    rw [List.cons_subset] at hsub
    refine ih (hbuilt.join ?_) hsub.2
    have hmem : component ∈ p.front ∨ component ∈ parts p.chars := by
      simpa [components_eq] using hsub.1
    rcases hmem with hfront | hmem
    · have hmarks : component = .root ∨ component = .current := by
        unfold front at hfront
        split at hfront
        · simp_all
        · split at hfront <;> simp_all
      rcases hmarks with rfl | rfl <;> decide
    · rcases mem_parts hmem with rfl | ⟨segment, rfl, hslash, hsegment⟩
      · exact absurd hmem (hasParentSegment_eq_false.1 hparent)
      · simp [Component.chars, parts_segment hslash, hsegment]

/-- **An absolute spelling is grounded** when neither the path nor the directory has a segment
`..`. -/
theorem grounded_absoluteFrom {p cwd : Path} (hcwd : cwd.Grounded)
    (hparent : p.hasParentSegment = false) : (p.absoluteFrom cwd).Grounded := by
  have hroot : (⟨['/']⟩ : Path).Grounded := ⟨rfl, by decide⟩
  have hslashes : (⟨['/', '/']⟩ : Path).Grounded := ⟨rfl, by decide⟩
  -- an absolute path starts with the root, whatever it is joined to
  have habsolute : p.isAbsolute = true → ((⟨[]⟩ : Path).joinAll p.components).Grounded := by
    intro h
    have hstart : (⟨[]⟩ : Path).joinAll p.components =
        (⟨['/']⟩ : Path).joinAll (parts p.chars) := by
      rw [components_of_isAbsolute h]
      rfl
    rw [hstart]
    refine hroot.joinAll (p := p) ?_ hparent
    rw [components_of_isAbsolute h]
    exact List.subset_cons_self _ _
  have hend : ∀ path : Path, path.Grounded →
      (if p.chars.getLast? = some '/' then path.join ⟨[]⟩ else path).Grounded := by
    intro path hpath
    split
    · exact hpath.join (by simp)
    · exact hpath
  unfold absoluteFrom
  refine hend _ ?_
  split
  · next h =>
    split
    · exact habsolute h
    · exact hslashes.joinAll (List.drop_subset _ _) hparent
    · exact habsolute h
  · exact hcwd.joinAll (List.filter_subset_self _) hparent

end Path

end BracketTemplate
