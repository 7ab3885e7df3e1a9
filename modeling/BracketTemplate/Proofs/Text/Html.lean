import Mathlib
import BracketTemplate.Text.Html

/-!
# What escaping does to a text

The characters that would start a tag or end the value of an attribute do not occur in escaped text
(`not_mem_escape`), and an ampersand in it starts one of the five entities (`exists_entity`).
Nothing is lost: reading the entities from left to right gives the text back (`unescape_escape`),
also where the text has entities in it already.  That rests on two facts about a single character:
it is either written as an entity, whose only ampersand is the first character, or stays as it is
and is no ampersand (`entity_cases`).
-/

namespace BracketTemplate.Html

/-- The characters that start or end a tag, or the value of an attribute. -/
def markup : List Char := ['<', '>', '"', '\'']

lemma not_mem_entity {c : Char} (hc : c ∈ markup) (d : Char) : c ∉ entity d := by
  unfold entity
  split
  case h_6 _ hlt hgt hquot hapos =>
    intro hmem
    obtain rfl := List.mem_singleton.1 hmem
    simp only [markup, List.mem_cons, List.not_mem_nil, or_false] at hc
    rcases hc with rfl | rfl | rfl | rfl
    · exact hlt rfl
    · exact hgt rfl
    · exact hquot rfl
    · exact hapos rfl
  all_goals
    simp only [markup, List.mem_cons, List.not_mem_nil, or_false] at hc
    rcases hc with rfl | rfl | rfl | rfl <;> decide

/-- **Escaped text has no markup.** -/
theorem not_mem_escape {c : Char} (hc : c ∈ markup) (text : List Char) : c ∉ escape text := by
  intro hmem
  obtain ⟨d, -, hd⟩ := List.mem_flatMap.1 hmem
  exact not_mem_entity hc d hd

/-! ## Entities -/

/-- The five entities, each with the character that it stands for. -/
def entities : List (List Char × Char) :=
  [("&amp;".toList, '&'), ("&lt;".toList, '<'), ("&gt;".toList, '>'), ("&quot;".toList, '"'),
    ("&apos;".toList, '\'')]

/-- A character is written as its entity, or stays and is no ampersand. -/
lemma entity_cases (c : Char) : (entity c, c) ∈ entities ∨ entity c = [c] ∧ c ≠ '&' := by
  unfold entity
  split
  case h_6 hamp _ _ _ _ => exact .inr ⟨rfl, hamp⟩
  all_goals exact .inl (by decide)

/-- The only ampersand of an entity is its first character. -/
lemma amp_first : ∀ e ∈ entities, e.1 = '&' :: e.1.tail ∧ '&' ∉ e.1.tail := by decide

/-- **An ampersand in escaped text starts an entity.** -/
theorem exists_entity {text before behind : List Char} (h : escape text = before ++ '&' :: behind) :
    ∃ e ∈ entities, e.1 <+: '&' :: behind := by
  induction text generalizing before with
  | nil => simp at h
  | cons c text ih =>
    rw [escape_cons] at h
    rcases List.append_eq_append_iff.1 h with ⟨more, rfl, hmore⟩ | ⟨more, hentity, hmore⟩
    · exact ih hmore
    rcases more with _ | ⟨d, more⟩
    · have hwhole : escape text = [] ++ '&' :: behind := hmore.symm
      exact ih hwhole
    obtain ⟨rfl, hbehind⟩ := List.cons.inj hmore
    rcases entity_cases c with hmem | ⟨hself, hamp⟩
    · rcases before with _ | ⟨_, before⟩
      · refine ⟨_, hmem, ?_⟩
        rw [hentity, hbehind]
        exact ⟨escape text, rfl⟩
      · have hnot := (amp_first _ hmem).2
        rw [hentity] at hnot
        simp at hnot
    · have hmem : '&' ∈ [c] := by
        rw [← hself, hentity]
        simp
      exact absurd (List.mem_singleton.1 hmem).symm hamp

/-! ## Reading entities -/

/-- The entity at the front of a text. -/
def entityAt? (text : List Char) : Option (List Char × Char) :=
  entities.find? fun e => e.1.isPrefixOf text

/-- The decoder behind `unescape`, with `skip` characters still to be passed over. -/
def unescapeFrom : Nat → List Char → List Char
  | _, [] => []
  | skip + 1, _ :: rest => unescapeFrom skip rest
  | 0, c :: rest =>
    match entityAt? (c :: rest) with
    | some (name, d) => d :: unescapeFrom (name.length - 1) rest
    | none => c :: unescapeFrom 0 rest

/-- A text with its entities replaced by the characters they stand for, from left to right. -/
def unescape (text : List Char) : List Char := unescapeFrom 0 text

lemma unescapeFrom_append (skipped rest : List Char) :
    unescapeFrom skipped.length (skipped ++ rest) = unescapeFrom 0 rest := by
  induction skipped with
  | nil => rfl
  | cons c skipped ih => exact ih

/-- What is no ampersand starts no entity, and is read as it is. -/
lemma unescape_cons {c : Char} (h : c ≠ '&') (rest : List Char) :
    unescape (c :: rest) = c :: unescape rest := by
  have hnone : entityAt? (c :: rest) = none := by
    refine List.find?_eq_none.2 fun e he => ?_
    rw [(amp_first e he).1]
    simp [h.symm]
  rw [unescape, unescapeFrom, hnone]
  rfl

/-- No two of the entities start alike, so the one that is written is the one that is read. -/
lemma entityAt?_append : ∀ e ∈ entities, ∀ rest, entityAt? (e.1 ++ rest) = some e := by
  intro e he rest
  simp only [entities, List.mem_cons, List.not_mem_nil, or_false] at he
  rcases he with rfl | rfl | rfl | rfl | rfl <;> rfl

lemma unescape_entity {e : List Char × Char} (he : e ∈ entities) (rest : List Char) :
    unescape (e.1 ++ rest) = e.2 :: unescape rest := by
  have hread := entityAt?_append e he rest
  have hname := (amp_first e he).1
  have hlength : e.1.length - 1 = e.1.tail.length := by rw [List.length_tail]
  rw [hname, List.cons_append] at hread ⊢
  rw [unescape, unescapeFrom, hread]
  simp only [hlength, unescapeFrom_append]
  rfl

/-- **Escaping loses nothing.** -/
theorem unescape_escape (text : List Char) : unescape (escape text) = text := by
  induction text with
  | nil => rfl
  | cons c text ih =>
    rw [escape_cons]
    rcases entity_cases c with hmem | ⟨hself, hamp⟩
    · rw [unescape_entity hmem, ih]
    · rw [hself, List.singleton_append, unescape_cons hamp, ih]

/-- **Escaping is safe and lossless.**  No markup is left in escaped text, and every ampersand in it
starts one of the five entities; replacing these from left to right gives the text back, so
different texts stay different; and pieces that are escaped one by one are the whole escaped. -/
theorem escape_faithful :
    (∀ text, (∀ c ∈ markup, c ∉ escape text) ∧
      (∀ before behind, escape text = before ++ '&' :: behind →
        ∃ e ∈ entities, e.1 <+: '&' :: behind) ∧
      unescape (escape text) = text) ∧
    Function.Injective escape ∧ ∀ s t, escape (s ++ t) = escape s ++ escape t :=
  ⟨fun text => ⟨fun _ hc => not_mem_escape hc text, fun _ _ => exists_entity, unescape_escape text⟩,
    Function.LeftInverse.injective unescape_escape, escape_append⟩

/-- A text that has an entity in it already. -/
theorem escape_faithful_entity :
    escape "a &lt; b".toList = "a &amp;lt; b".toList ∧
      unescape "a &amp;lt; b".toList = "a &lt; b".toList ∧
      escape "a &lt; b".toList ≠ escape "a < b".toList := by
  have hwritten : escape "a &lt; b".toList = "a &amp;lt; b".toList := by decide
  obtain ⟨htext, hinjective, -⟩ := escape_faithful
  refine ⟨hwritten, ?_, fun h => ?_⟩
  · rw [← hwritten]
    exact (htext _).2.2
  · have := hinjective h
    revert this
    decide

end BracketTemplate.Html
