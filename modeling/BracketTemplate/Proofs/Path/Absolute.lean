import Mathlib
import BracketTemplate.Proofs.Path.Join

/-!
# Absolute spellings keep the components

Making a path absolute changes its spelling only.  An absolute path keeps its components
(`components_absoluteFrom`), and a relative one has its own behind those of the directory that it is
seen from (`components_absoluteFrom_relative`).  A path is absolute when its components start with
those of an absolute one.  What lies below a path lies below it by the absolute spellings, too
(`startsWith_absoluteFrom`), and when the path does not pass the check for path safety, nothing
below it does (`checkSegments_of_startsWith`).
-/

namespace BracketTemplate.Path

/-! ## Absolute paths by their components -/

lemma isAbsolute_iff {p : Path} : p.isAbsolute = true ↔ p.components.head? = some .root := by
  constructor
  · intro h
    rw [components_of_isAbsolute h]
    rfl
  · intro h
    by_contra hrelative
    rw [components_eq, front, if_neg hrelative] at h
    split at h
    · cases h
    · rcases mem_parts (List.mem_of_mem_head? h) with hroot | ⟨segment, hroot, -⟩ <;> cases hroot

/-- What starts with an absolute path is absolute. -/
theorem isAbsolute_of_startsWith {p base : Path} (h : p.startsWith base = true)
    (hbase : base.isAbsolute = true) : p.isAbsolute = true := by
  obtain ⟨rest, hrest⟩ := startsWith_iff.1 h
  rw [components_of_isAbsolute hbase] at hrest
  rw [isAbsolute_iff, ← hrest]
  rfl

/-! ## Joining components -/

/-- A component that stands for a segment is read back from its spelling. -/
lemma parts_chars {text : List Char} {component : Component} (h : component ∈ parts text) :
    parts component.chars = [component] ∧ (Path.mk component.chars).isAbsolute = false := by
  rcases mem_parts h with rfl | ⟨segment, rfl, hslash, hsegment⟩
  · decide
  · refine ⟨by simp [Component.chars, parts_segment hslash, hsegment], ?_⟩
    have hhead : segment.head? ≠ some '/' := fun hhead => hslash (List.mem_of_mem_head? hhead)
    exact decide_eq_false hhead

/-- Joining components to a path puts them behind its own. -/
lemma parts_joinAll (built : Path) {components : List Component} {text : List Char}
    (hsub : components ⊆ parts text) :
    parts (built.joinAll components).chars = parts built.chars ++ components := by
  induction components generalizing built with
  | nil => simp [joinAll]
  | cons component components ih =>
    rw [List.cons_subset] at hsub
    obtain ⟨hparts, hrelative⟩ := parts_chars hsub.1
    show parts ((built.join ⟨component.chars⟩).joinAll components).chars = _
    rw [ih _ hsub.2, parts_join hrelative, hparts, List.append_assoc]
    rfl

lemma isAbsolute_joinAll {built : Path} (h : built.isAbsolute = true)
    (components : List Component) :
    (built.joinAll components).isAbsolute = true := by
  induction components generalizing built with
  | nil => exact h
  | cons component components ih => exact ih (isAbsolute_join h _)

/-- Components of a spelling behind an absolute path. -/
lemma components_joinAll {built : Path} (h : built.isAbsolute = true) {components : List Component}
    {text : List Char} (hsub : components ⊆ parts text) :
    (built.joinAll components).components = built.components ++ components := by
  rw [components_of_isAbsolute (isAbsolute_joinAll h _), parts_joinAll _ hsub,
    components_of_isAbsolute h]
  rfl

/-! ## Absolute spellings -/

/-- An absolute spelling is built from an absolute path, and a slash at the end does not count. -/
lemma components_ended (built : Path) (h : built.isAbsolute = true) (p : Path) :
    ((if p.chars.getLast? = some '/' then (built.joinAll (parts p.chars)).join ⟨[]⟩
      else built.joinAll (parts p.chars)).isAbsolute = true) ∧
    (if p.chars.getLast? = some '/' then (built.joinAll (parts p.chars)).join ⟨[]⟩
      else built.joinAll (parts p.chars)).components = built.components ++ parts p.chars := by
  have hjoined := isAbsolute_joinAll h (parts p.chars)
  have hparts := components_joinAll h (List.Subset.refl (parts p.chars))
  split
  · refine ⟨isAbsolute_join hjoined _, ?_⟩
    rw [components_join hjoined rfl, parts_nil, List.append_nil, hparts]
  · exact ⟨hjoined, hparts⟩

/-- **An absolute path keeps its components.** -/
theorem components_absoluteFrom {p : Path} (h : p.isAbsolute = true) (cwd : Path) :
    (p.absoluteFrom cwd).components = p.components := by
  have hslash := (components_ended ⟨['/']⟩ rfl p).2
  have hslashes := (components_ended ⟨['/', '/']⟩ rfl p).2
  unfold absoluteFrom
  rw [if_pos h]
  rw [components_of_isAbsolute h]
  split
  · exact hslash
  · exact hslashes
  · exact hslash

/-- Behind a leading dot a relative path has the components of its segments. -/
lemma filter_components {p : Path} (h : p.isAbsolute = false) :
    p.components.filter (· ≠ .current) = parts p.chars := by
  have hall : (parts p.chars).filter (· ≠ .current) = parts p.chars := by
    refine List.filter_eq_self.2 fun component hmem => ?_
    rcases mem_parts hmem with rfl | ⟨segment, rfl, -⟩ <;> rfl
  have hfront : p.front.filter (· ≠ .current) = [] := by
    unfold front
    rw [h]
    split <;> simp_all
  rw [components_eq, List.filter_append, hall, hfront, List.nil_append]

/-- **A relative path goes behind the directory.** -/
theorem components_absoluteFrom_relative {p cwd : Path} (h : p.isAbsolute = false)
    (hcwd : cwd.isAbsolute = true) :
    (p.absoluteFrom cwd).components = cwd.components ++ parts p.chars := by
  have habsolute : p.absoluteFrom cwd =
      if p.chars.getLast? = some '/' then (cwd.joinAll (parts p.chars)).join ⟨[]⟩
      else cwd.joinAll (parts p.chars) := by
    unfold absoluteFrom
    rw [h, filter_components h]
    rfl
  rw [habsolute]
  exact (components_ended _ hcwd p).2

theorem isAbsolute_absoluteFrom (p : Path) {cwd : Path} (hcwd : cwd.isAbsolute = true) :
    (p.absoluteFrom cwd).isAbsolute = true := by
  rcases h : p.isAbsolute with _ | _
  · rw [isAbsolute_iff, components_absoluteFrom_relative h hcwd, components_of_isAbsolute hcwd]
    rfl
  · rw [isAbsolute_iff, components_absoluteFrom h, ← isAbsolute_iff, h]

/-- What passes the check has an absolute spelling, unless it is empty. -/
lemma absolutize_of_checkSegments {p : Path} (h : p.checkSegments = .ok ()) (hne : p.chars ≠ [])
    (cwd : Path) : p.absolutize cwd = .ok (p.absoluteFrom cwd) := by
  rw [absolutize, h]
  show (if p.chars.isEmpty then _ else pure (p.absoluteFrom cwd)) = Except.ok (p.absoluteFrom cwd)
  rw [if_neg (by simpa using hne)]
  rfl

/-- Grounded paths pass the check, and are not empty. -/
lemma Grounded.absolutize {p : Path} (h : p.Grounded) (cwd : Path) :
    p.absolutize cwd = .ok (p.absoluteFrom cwd) := by
  obtain ⟨rest, hchars⟩ := List.head?_eq_some_iff.1 (of_decide_eq_true h.absolute)
  refine absolutize_of_checkSegments ?_ (by simp [hchars]) cwd
  exact checkSegments_eq_ok.2 ⟨by simp [hchars], hasParentSegment_eq_false.2 h.noParent⟩

/-! ## Below a root -/

/-- Without the slashes that it starts with, a spelling is relative. -/
lemma isAbsolute_dropWhile (text : List Char) :
    (Path.mk (text.dropWhile (· = '/'))).isAbsolute = false := by
  have hhead := List.head?_dropWhile_not (fun c => decide (c = '/')) text
  unfold isAbsolute
  cases h : (text.dropWhile fun c => decide (c = '/')).head? with
  | none => rfl
  | some c =>
    rw [h] at hhead
    simpa using hhead

/-- A relative path that is not empty starts with a dot, or with the name that it is spelled by. -/
lemma head?_components {p : Path} {c : Char} {rest : List Char} (hchars : p.chars = c :: rest)
    (hrelative : p.isAbsolute = false) :
    c = '.' ∧ (p.components.head? = some .current ∨ p.components.head? = some .parent) ∨
      ∃ more, p.components.head? = some (.name (c :: more)) := by
  have hslash : c ≠ '/' := by
    rintro rfl
    simp [isAbsolute, hchars] at hrelative
  obtain ⟨piece, more, hsplit⟩ := List.exists_cons_of_ne_nil (splitAt_ne_nil '/' rest)
  have hsegments : splitAt '/' p.chars = (c :: piece) :: more := by
    rw [hchars, splitAt, if_neg hslash, hsplit]
  by_cases hdot : c :: piece = ['.']
  · have hfront : p.front = [.current] := by
      rw [front, if_neg (by simp [hrelative]), segments, hsegments, hdot]
      rfl
    left
    rw [components_eq, hfront]
    exact ⟨(List.cons.inj hdot).1, .inl rfl⟩
  · have hfront : p.front = [] := by
      rw [front, if_neg (by simp [hrelative]), segments, hsegments]
      exact if_neg (by simpa using hdot)
    rw [components_eq, hfront, List.nil_append, parts, hsegments]
    by_cases hparent : c :: piece = ['.', '.']
    · left
      rw [hparent]
      exact ⟨(List.cons.inj hparent).1, .inr rfl⟩
    · have hname : Component.ofSegment (c :: piece) = some (.name (c :: piece)) := by
        unfold Component.ofSegment
        split <;> simp_all
      right
      rw [List.filterMap_cons_some hname]
      exact ⟨piece, rfl⟩

/-- A path that is not empty has components. -/
lemma components_ne_nil {p : Path} (h : p.chars ≠ []) : p.components ≠ [] := by
  rcases habsolute : p.isAbsolute with _ | _
  · obtain ⟨c, rest, hchars⟩ := List.exists_cons_of_ne_nil h
    intro hnil
    have hhead := head?_components hchars habsolute
    simp [hnil] at hhead
  · rw [components_of_isAbsolute habsolute]
    exact List.cons_ne_nil _ _

/-- A path lies below what it starts with, and has its first component. -/
lemma head?_of_startsWith {p base : Path} (h : p.startsWith base = true) (hbase : base.chars ≠ []) :
    p.components.head? = base.components.head? := by
  obtain ⟨rest, hrest⟩ := startsWith_iff.1 h
  rw [← hrest, List.head?_append_of_ne_nil _ (components_ne_nil hbase)]

/-- **Below a path that is refused all paths are refused.** -/
theorem checkSegments_of_startsWith {p base : Path} (h : p.startsWith base = true)
    (hp : p.checkSegments = .ok ()) : base.checkSegments = .ok () := by
  obtain ⟨htilde, hparent⟩ := checkSegments_eq_ok.1 hp
  refine checkSegments_eq_ok.2 ⟨fun hbase => htilde ?_, ?_⟩
  · -- a tilde that the base starts with is in its first name, which is that of the path
    obtain ⟨rest, hchars⟩ := List.head?_eq_some_iff.1 hbase
    have hrelative : base.isAbsolute = false := by simp [isAbsolute, hchars]
    have hsame := head?_of_startsWith h (by simp [hchars])
    obtain ⟨hdot, -⟩ | ⟨more, hname⟩ := head?_components hchars hrelative
    · cases hdot
    rw [hname] at hsame
    have hp' : p.isAbsolute = false := by
      by_contra habsolute
      rw [Bool.not_eq_false, isAbsolute_iff, hsame] at habsolute
      cases habsolute
    cases hpchars : p.chars with
    | nil =>
      obtain ⟨chars⟩ := p
      obtain rfl : chars = [] := hpchars
      cases hsame
    | cons c rest =>
      rcases head?_components hpchars hp' with ⟨-, hdot | hdot⟩ | ⟨more', hname'⟩
      · rw [hsame] at hdot
        cases hdot
      · rw [hsame] at hdot
        cases hdot
      · rw [hsame] at hname'
        cases hname'
        rfl
  · simp only [hasParentSegment, List.contains_eq_mem, decide_eq_false_iff_not] at hparent ⊢
    exact fun hmem => hparent ((startsWith_iff.1 h).subset hmem)

/-- **What lies below a path does so by its absolute spelling**, unless the path is empty. -/
theorem startsWith_absoluteFrom {p base cwd : Path} (h : p.startsWith base = true)
    (hbase : base.chars ≠ []) (hcwd : cwd.isAbsolute = true) :
    (p.absoluteFrom cwd).startsWith (base.absoluteFrom cwd) = true := by
  rcases hrelative : base.isAbsolute with _ | _
  · have hp : p.isAbsolute = false := by
      by_contra hp
      rw [Bool.not_eq_false, isAbsolute_iff] at hp
      obtain ⟨rest, hrest⟩ := startsWith_iff.1 h
      rw [← hrest, List.head?_append_of_ne_nil _ (components_ne_nil hbase), ← isAbsolute_iff,
        hrelative] at hp
      cases hp
    rw [startsWith_iff, components_absoluteFrom_relative hp hcwd,
      components_absoluteFrom_relative hrelative hcwd, ← filter_components hp,
      ← filter_components hrelative, List.prefix_append_right_inj]
    exact (startsWith_iff.1 h).filter _
  · have hp := isAbsolute_of_startsWith h hrelative
    rw [startsWith_iff, components_absoluteFrom hp, components_absoluteFrom hrelative]
    exact startsWith_iff.1 h

end BracketTemplate.Path
