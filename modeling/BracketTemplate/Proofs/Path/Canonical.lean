import Mathlib
import BracketTemplate.Proofs.Path.Absolute

/-!
# Canonical spellings

Making a path absolute gives it one of few spellings: one slash or two, its names with a slash
between them, and perhaps a slash behind them (`Path.canonical`).  A path that is spelled so is made
absolute by leaving it alone (`Path.absoluteFrom_canonical`).  And names that are joined to such a
path go behind its own (`Path.canonical_join`).
-/

namespace BracketTemplate

/-! ## Names between slashes -/

lemma joinWith_cons_cons (sep : Char) (piece next : List Char) (rest : List (List Char)) :
    joinWith sep (piece :: next :: rest) = piece ++ sep :: joinWith sep (next :: rest) := rfl

lemma joinWith_cons (sep : Char) (piece : List Char) (rest : List (List Char)) :
    joinWith sep (piece :: rest) = piece ++ rest.flatMap (sep :: ·) := by
  induction rest generalizing piece with
  | nil => simp [joinWith]
  | cons next rest ih => rw [joinWith_cons_cons, ih, List.flatMap_cons, List.cons_append]

lemma joinWith_append (sep : Char) {pieces more : List (List Char)} (hne : pieces ≠ [])
    (hmore : more ≠ []) :
    joinWith sep (pieces ++ more) = joinWith sep pieces ++ sep :: joinWith sep more := by
  obtain ⟨piece, rest, rfl⟩ := List.exists_cons_of_ne_nil hne
  obtain ⟨next, others, rfl⟩ := List.exists_cons_of_ne_nil hmore
  rw [List.cons_append, joinWith_cons, joinWith_cons, joinWith_cons, List.flatMap_append,
    List.flatMap_cons]
  simp

lemma mem_joinWith {sep c : Char} {pieces : List (List Char)} (h : c ∈ joinWith sep pieces) :
    c = sep ∨ ∃ piece ∈ pieces, c ∈ piece := by
  cases pieces with
  | nil => cases h
  | cons piece rest =>
    rw [joinWith_cons, List.mem_append, List.mem_flatMap] at h
    rcases h with hhere | ⟨other, hother, hmem⟩
    · exact .inr ⟨piece, by simp, hhere⟩
    · rcases List.mem_cons.1 hmem with hsep | hmem
      · exact .inl hsep
      · exact .inr ⟨other, by simp [hother], hmem⟩

/-- Pieces that do not hold the separator are read back. -/
theorem splitAt_joinWith {sep : Char} {pieces : List (List Char)} (hne : pieces ≠ [])
    (h : ∀ piece ∈ pieces, sep ∉ piece) : splitAt sep (joinWith sep pieces) = pieces := by
  induction pieces with
  | nil => exact absurd rfl hne
  | cons piece rest ih =>
    rw [List.forall_mem_cons] at h
    cases rest with
    | nil => exact splitAt_of_not_mem h.1
    | cons next rest =>
      rw [joinWith_cons_cons, splitAt_append, splitAt_of_not_mem h.1, ih (by simp) h.2]
      rfl

namespace Path

/-- A text that names something in a directory. -/
structure IsName (name : List Char) : Prop where
  noSlash : '/' ∉ name
  names : Component.ofSegment name = some (.name name)

instance (name : List Char) : Decidable (IsName name) :=
  decidable_of_iff ('/' ∉ name ∧ Component.ofSegment name = some (.name name))
    ⟨fun h => ⟨h.1, h.2⟩, fun h => ⟨h.1, h.2⟩⟩

variable {name : List Char} {names more : List (List Char)}

lemma IsName.ne_nil (h : IsName name) : name ≠ [] := ofSegment_ne_nil h.names

/-- A name neither starts nor ends with a slash. -/
lemma IsName.ends (h : IsName name) : name.head? ≠ some '/' ∧ name.getLast? ≠ some '/' :=
  ⟨fun hhead => h.noSlash (List.mem_of_mem_head? hhead),
    fun hlast => h.noSlash (List.mem_of_getLast? hlast)⟩

lemma IsName.isAbsolute (h : IsName name) : (Path.mk name).isAbsolute = false :=
  decide_eq_false h.ends.1

/-- The names of a spelling without segments `..` are names. -/
lemma isName_of_parts {text : List Char} (h : parts text = names.map .name) :
    ∀ name ∈ names, IsName name := by
  intro name hname
  have hmem : Component.name name ∈ parts text := h ▸ List.mem_map_of_mem hname
  rcases mem_parts hmem with hparent | ⟨segment, hsegment, hslash, hreads⟩
  · cases hparent
  · cases hsegment
    exact ⟨hslash, hreads⟩

/-- Names are read back from between the slashes. -/
lemma parts_joinWith (h : ∀ name ∈ names, IsName name) :
    parts (joinWith '/' names) = names.map .name := by
  cases names with
  | nil => rfl
  | cons name rest =>
    rw [parts, splitAt_joinWith (by simp) fun name hname => (h name hname).noSlash,
      ← List.filterMap_eq_map]
    exact List.filterMap_congr fun name hname => (h name hname).names

/-- Names with slashes between them do not start with a slash, nor end with one. -/
lemma joinWith_ends (h : ∀ name ∈ names, IsName name) :
    (joinWith '/' names).head? ≠ some '/' ∧ (joinWith '/' names).getLast? ≠ some '/' := by
  induction names with
  | nil => simp [joinWith]
  | cons name rest ih =>
    rw [List.forall_mem_cons] at h
    obtain ⟨hne, hhead, hlast⟩ := And.intro h.1.ne_nil h.1.ends
    cases rest with
    | nil => exact ⟨hhead, hlast⟩
    | cons next rest =>
      have hrest : joinWith '/' (next :: rest) ≠ [] := by
        rw [joinWith_cons]
        exact List.append_ne_nil_of_left_ne_nil (h.2 next (by simp)).ne_nil _
      refine ⟨?_, ?_⟩
      · rw [joinWith_cons_cons, List.head?_append_of_ne_nil _ hne]
        exact hhead
      · rw [joinWith_cons_cons, List.getLast?_append_of_ne_nil _ (by simp), List.getLast?_cons,
          List.getLast?_eq_some_getLast hrest]
        simpa [List.getLast?_eq_some_getLast hrest] using (ih h.2).2

/-! ## Canonical spellings -/

/-- The spelling of an absolute path by its names: behind one slash or two, with slashes between
them and perhaps one behind them. -/
def canonical (twice : Bool) (names : List (List Char)) (slash : Bool) : Path :=
  ⟨(if twice then ['/', '/'] else ['/']) ++ joinWith '/' names ++
    if slash ∧ names ≠ [] then ['/'] else []⟩

variable {twice slash : Bool}

lemma isAbsolute_canonical : (canonical twice names slash).isAbsolute = true := by
  cases twice <;> rfl

lemma components_canonical (h : ∀ name ∈ names, IsName name) :
    (canonical twice names slash).components = .root :: names.map .name := by
  have htail : ∀ text, parts (text ++ if slash ∧ names ≠ [] then ['/'] else []) = parts text := by
    intro text
    split
    · exact parts_concat_slash text
    · rw [List.append_nil]
  rw [components_of_isAbsolute isAbsolute_canonical, canonical]
  cases twice <;> simp [htail, parts_joinWith h]

lemma grounded_canonical (h : ∀ name ∈ names, IsName name) :
    (canonical twice names slash).Grounded := by
  refine ⟨isAbsolute_canonical, ?_⟩
  have hcomponents : (canonical twice names slash).components = _ := components_canonical h
  rw [components_of_isAbsolute isAbsolute_canonical] at hcomponents
  rw [(List.cons.inj hcomponents).2]
  simp

/-- The last segment of a canonical spelling without a slash at its end is its last name. -/
lemma getLast?_canonical (h : ∀ name ∈ names, IsName name) (hne : names ≠ []) :
    (canonical twice names false).segments.getLast? = names.getLast? := by
  have hsplit := splitAt_joinWith hne fun name hname => (h name hname).noSlash
  have hsegments : (canonical twice names false).segments =
      (if twice then [[], []] else [[]]) ++ names := by
    cases twice <;> simp [canonical, segments, splitAt, hsplit]
  rw [hsegments, List.getLast?_append_of_ne_nil _ hne]

lemma canonical_ends (h : ∀ name ∈ names, IsName name) :
    (canonical twice names slash).chars.getLast? = some '/' ↔ slash = true ∨ names = [] := by
  cases names with
  | nil => cases twice <;> cases slash <;> simp [canonical, joinWith]
  | cons name rest =>
    have hne : joinWith '/' (name :: rest) ≠ [] := by
      rw [joinWith_cons]
      exact List.append_ne_nil_of_left_ne_nil (h name (by simp)).ne_nil _
    cases slash with
    | false => simpa [canonical, List.getLast?_append_of_ne_nil _ hne] using (joinWith_ends h).2
    | true => simp [canonical]

/-! ## Joining names -/

lemma join_name {p : Path} (hname : IsName name) :
    (p.join ⟨name⟩).chars =
      if p.chars = [] ∨ p.chars.getLast? = some '/' then p.chars ++ name
      else p.chars ++ '/' :: name := by
  unfold join
  rw [if_neg (by rw [hname.isAbsolute]; simp)]
  by_cases hend : p.chars = [] ∨ p.chars.getLast? = some '/'
  · rw [if_pos hend, if_pos (by simpa using hend)]
  · rw [if_neg hend, if_neg (by simpa using hend)]

/-- Names are joined to a path that ends with one. -/
lemma joinAll_behind {p : Path} (hne : p.chars ≠ []) (hend : p.chars.getLast? ≠ some '/')
    (h : ∀ name ∈ names, IsName name) :
    p.joinAll (names.map .name) = ⟨p.chars ++ names.flatMap ('/' :: ·)⟩ := by
  induction names generalizing p with
  | nil => simp [joinAll]
  | cons name rest ih =>
    rw [List.forall_mem_cons] at h
    have hchars : (p.join ⟨name⟩).chars = p.chars ++ '/' :: name := by
      rw [join_name h.1, if_neg (by tauto)]
    have hlast : (p.join ⟨name⟩).chars.getLast? ≠ some '/' := by
      rw [hchars, List.getLast?_append_of_ne_nil _ (by simp), List.getLast?_cons,
        List.getLast?_eq_some_getLast h.1.ne_nil]
      simpa [List.getLast?_eq_some_getLast h.1.ne_nil] using h.1.ends.2
    show (p.join ⟨name⟩).joinAll (rest.map .name) = _
    rw [ih (by rw [hchars]; simp) hlast h.2, hchars]
    simp

/-- Names are joined to a path that ends with a slash. -/
lemma joinAll_slash {p : Path} (hend : p.chars = [] ∨ p.chars.getLast? = some '/')
    (h : ∀ name ∈ names, IsName name) :
    p.joinAll (names.map .name) = ⟨p.chars ++ joinWith '/' names⟩ := by
  cases names with
  | nil => simp [joinAll, joinWith]
  | cons name rest =>
    rw [List.forall_mem_cons] at h
    have hchars : (p.join ⟨name⟩).chars = p.chars ++ name := by rw [join_name h.1, if_pos hend]
    have hlast : (p.join ⟨name⟩).chars.getLast? ≠ some '/' := by
      rw [hchars, List.getLast?_append_of_ne_nil _ h.1.ne_nil]
      exact h.1.ends.2
    show (p.join ⟨name⟩).joinAll (rest.map .name) = _
    rw [joinAll_behind (by rw [hchars]; simp [h.1.ne_nil]) hlast h.2, hchars, joinWith_cons,
      List.append_assoc]

/-- Names are joined to a canonical spelling one by one. -/
lemma joinAll_canonical (h : ∀ name ∈ names, IsName name) (hmore : ∀ name ∈ more, IsName name) :
    (canonical twice names false).joinAll (more.map .name) =
      canonical twice (names ++ more) false := by
  have hends : (canonical twice names false).chars.getLast? = some '/' ↔ _ := canonical_ends h
  rcases more with _ | ⟨next, rest⟩
  · simp [joinAll]
  rcases names with _ | ⟨name, names⟩
  · rw [joinAll_slash (.inr (hends.2 (.inr rfl))) hmore]
    simp [canonical, joinWith]
  · have hlast : (canonical twice (name :: names) false).chars.getLast? ≠ some '/' :=
      fun hlast => by simpa using hends.1 hlast
    rw [joinAll_behind (by cases twice <;> simp [canonical]) hlast hmore, canonical, canonical,
      joinWith_append _ (by simp) (by simp), joinWith_cons '/' next]
    simp

/-- **Names that are joined to a canonical spelling go behind its own.** -/
theorem canonical_join (h : ∀ name ∈ names, IsName name) (hne : more ≠ [])
    (hmore : ∀ name ∈ more, IsName name) :
    (canonical twice names slash).join ⟨joinWith '/' more⟩ =
      canonical twice (names ++ more) false := by
  have hends : (canonical twice names slash).chars.getLast? = some '/' ↔ _ := canonical_ends h
  have hchars : (canonical twice names slash).chars ≠ [] := by cases twice <;> simp [canonical]
  unfold join
  rw [if_neg (by simpa [isAbsolute] using (joinWith_ends hmore).1)]
  by_cases hlast : slash = true ∨ names = []
  · rw [if_pos (by simp [hends.2 hlast])]
    rcases names with _ | ⟨name, names⟩
    · simp [canonical, joinWith]
    · obtain rfl : slash = true := by simpa using hlast
      have happend := joinWith_append '/' (List.cons_ne_nil name names) hne
      simp only [canonical, happend]
      simp
  · rw [if_neg (by simpa [hchars] using fun hend => hlast (hends.1 hend))]
    rw [not_or] at hlast
    obtain ⟨hslash, hnames⟩ := hlast
    simp [canonical, hslash, joinWith_append '/' hnames hne]

/-! ## Absolute spellings are canonical -/

/-- A path starts with two slashes, and not with three. -/
def startsTwice (p : Path) : Bool :=
  match p.chars with
  | '/' :: '/' :: '/' :: _ => false
  | '/' :: '/' :: _ => true
  | _ => false

/-- A slash behind a canonical spelling is kept. -/
lemma canonical_join_nil (h : ∀ name ∈ names, IsName name) :
    (canonical twice names false).join ⟨[]⟩ = canonical twice names true := by
  have hends : (canonical twice names false).chars.getLast? = some '/' ↔ _ := canonical_ends h
  have hne : (canonical twice names false).chars ≠ [] := by cases twice <;> simp [canonical]
  rcases names with _ | ⟨name, rest⟩
  · cases twice <;> decide
  · have hlast : (canonical twice (name :: rest) false).chars.getLast? ≠ some '/' :=
      fun hlast => by simpa using hends.1 hlast
    have hends' : ¬((canonical twice (name :: rest) false).chars = [] ∨
        (canonical twice (name :: rest) false).chars.getLast? = some '/') := by tauto
    unfold join
    rw [if_neg (by simp [isAbsolute]), if_neg (by simpa using hends')]
    simp [canonical]

/-- **The absolute spelling of an absolute path is canonical.** -/
theorem absoluteFrom_eq_canonical {p : Path} (habsolute : p.isAbsolute = true)
    (hnames : p.components = .root :: names.map .name) (cwd : Path) :
    p.absoluteFrom cwd =
      canonical p.startsTwice names (decide (p.chars.getLast? = some '/')) := by
  have hparts : parts p.chars = names.map .name := by
    rw [components_of_isAbsolute habsolute] at hnames
    exact (List.cons.inj hnames).2
  have hall := isName_of_parts hparts
  -- without the last slash
  have hone : (⟨[]⟩ : Path).joinAll (.root :: names.map .name) = canonical false names false := by
    show (⟨['/']⟩ : Path).joinAll (names.map .name) = _
    rw [joinAll_slash (.inr rfl) hall]
    simp [canonical]
  have htwo : (⟨['/', '/']⟩ : Path).joinAll (names.map .name) = canonical true names false := by
    rw [joinAll_slash (.inr rfl) hall]
    simp [canonical]
  have hend : ∀ twice, (if p.chars.getLast? = some '/' then (canonical twice names false).join ⟨[]⟩
      else canonical twice names false) =
        canonical twice names (decide (p.chars.getLast? = some '/')) := by
    intro twice
    by_cases hslash : p.chars.getLast? = some '/'
    · rw [if_pos hslash, decide_eq_true hslash, canonical_join_nil hall]
    · rw [if_neg hslash, decide_eq_false hslash]
  unfold absoluteFrom
  rw [if_pos habsolute, hnames, ← hend]
  split
  next rest hchars =>
    have hstart : p.startsTwice = false := by simp [startsTwice, hchars]
    show (if _ then ((⟨[]⟩ : Path).joinAll (.root :: names.map .name)).join ⟨[]⟩
      else (⟨[]⟩ : Path).joinAll (.root :: names.map .name)) = _
    rw [hone, hstart]
  next rest hnot hchars =>
    have hstart : p.startsTwice = true := by
      rcases rest with _ | ⟨c, rest⟩
      · simp [startsTwice, hchars]
      · simp [startsTwice, hchars]
    show (if _ then ((⟨['/', '/']⟩ : Path).joinAll (names.map .name)).join ⟨[]⟩
      else (⟨['/', '/']⟩ : Path).joinAll (names.map .name)) = _
    rw [htwo, hstart]
  next hnot hnot' =>
    have hstart : p.startsTwice = false := by
      unfold startsTwice
      split <;> simp_all
    show (if _ then ((⟨[]⟩ : Path).joinAll (.root :: names.map .name)).join ⟨[]⟩
      else (⟨[]⟩ : Path).joinAll (.root :: names.map .name)) = _
    rw [hone, hstart]

lemma startsTwice_canonical (h : ∀ name ∈ names, IsName name) :
    (canonical twice names slash).startsTwice = twice := by
  have hhead := (joinWith_ends h).1
  rcases hchars : joinWith '/' names with _ | ⟨c, rest⟩
  · cases names with
    | nil => cases twice <;> simp [canonical, startsTwice, joinWith]
    | cons name rest =>
      rw [joinWith_cons] at hchars
      exact absurd (List.append_eq_nil_iff.1 hchars).1 (h name (by simp)).ne_nil
  · have hc : c ≠ '/' := by
      rintro rfl
      rw [hchars] at hhead
      exact hhead rfl
    cases twice <;> simp [canonical, startsTwice, hchars, hc]

/-- **A canonical spelling is made absolute by leaving it alone.** -/
theorem absoluteFrom_canonical (h : ∀ name ∈ names, IsName name) (cwd : Path) :
    (canonical twice names slash).absoluteFrom cwd = canonical twice names slash := by
  rw [absoluteFrom_eq_canonical isAbsolute_canonical (components_canonical h),
    startsTwice_canonical h]
  have hends : (canonical twice names slash).chars.getLast? = some '/' ↔ _ := canonical_ends h
  by_cases hslash : slash = true
  · rw [decide_eq_true (hends.2 (.inl hslash)), hslash]
  · rcases names with _ | ⟨name, rest⟩
    · simp [canonical]
    · rw [decide_eq_false (by rw [hends]; simp [hslash])]
      simp [hslash]

/-- A relative path gets a canonical spelling from a directory that has one. -/
theorem absoluteFrom_relative {p : Path} (hrelative : p.isAbsolute = false)
    (h : ∀ name ∈ names, IsName name) (hparts : parts p.chars = more.map .name) :
    ∃ slash, p.absoluteFrom (canonical twice names false) =
      canonical twice (names ++ more) slash := by
  have hmore := isName_of_parts hparts
  have hall : ∀ name ∈ names ++ more, IsName name := by
    intro name hname
    rcases List.mem_append.1 hname with hname | hname
    · exact h name hname
    · exact hmore name hname
  unfold absoluteFrom
  rw [hrelative, filter_components hrelative, hparts]
  show ∃ slash, (if p.chars.getLast? = some '/' then
      ((canonical twice names false).joinAll (more.map .name)).join ⟨[]⟩
    else (canonical twice names false).joinAll (more.map .name)) = _
  rw [joinAll_canonical h hmore]
  split
  · exact ⟨true, canonical_join_nil hall⟩
  · exact ⟨false, rfl⟩

end Path

end BracketTemplate
