import Mathlib
import BracketTemplate.Proofs.Value.Number
import BracketTemplate.Value.JsonReader

/-!
# What JSON text keeps of a value

JSON has no word for a double that is not finite, so `null` stands in its place, as it does for
`nil`.  Nothing else is lost: two values have the same JSON text exactly when they are the same
after every such double has become `nil` (`toJson_inj`).

The text of a value inside of a list or a map is followed by a comma or a closing bracket.  A value
is shown to be determined by its text together with whatever comes behind it in such a way
(`Separates`), and this passes from the items to the list.  Strings are read back by the reader of
JSON text, which stops at their closing quote.
-/

namespace BracketTemplate

/-! ## Strings -/

namespace JsonReader

/-- The four hexadecimal digits of a control character. -/
lemma hexEscape_control {n : Nat} (hn : n < 32) (rest : List Char) (offset : Nat) :
    hexEscape ⟨List.replicate (4 - (Nat.toDigits 16 n).length) '0' ++ Nat.toDigits 16 n ++ rest,
      offset⟩ = .ok (n, ⟨rest, offset + 4⟩) := by
  have hdigits : ∀ n < 32, ∃ a b c d : Char,
      List.replicate (4 - (Nat.toDigits 16 n).length) '0' ++ Nat.toDigits 16 n = [a, b, c, d] ∧
        Utf8.size [a, b, c, d] = 4 ∧ hexDigit? a = some 0 ∧ hexDigit? b = some 0 ∧
          hexDigit? c = some (n / 16) ∧ hexDigit? d = some (n % 16) := by
    intro n hn
    interval_cases n <;> exact ⟨_, _, _, _, rfl, rfl, rfl, rfl, rfl, rfl⟩
  obtain ⟨a, b, c, d, htext, hsize, ha, hb, hc, hd⟩ := hdigits n hn
  rw [htext]
  simp [hexEscape, hsize, ha, hb, hc, hd, Input.after]
  omega

/-- Reading a string takes the text of a character at a time. -/
lemma text_jsonChar (c : Char) (fuel : Nat) (done rest : List Char) (offset : Nat) :
    ∃ offset', text (fuel + 1) done ⟨Value.jsonChar c ++ rest, offset⟩ =
      text fuel (c :: done) ⟨rest, offset'⟩ := by
  unfold Value.jsonChar
  split_ifs with hquote hbackslash hn hr ht hb hf hcontrol
  · exact ⟨_, by subst hquote; rfl⟩
  · exact ⟨_, by subst hbackslash; rfl⟩
  · exact ⟨_, by subst hn; rfl⟩
  · exact ⟨_, by subst hr; rfl⟩
  · exact ⟨_, by subst ht; rfl⟩
  · exact ⟨_, by subst hb; rfl⟩
  · exact ⟨_, by subst hf; rfl⟩
  · have hhex := hexEscape_control hcontrol rest (offset + 1 + 1)
    refine ⟨offset + 1 + 1 + 4, ?_⟩
    have hplane : ¬ (0xDC00 ≤ c.toNat && c.toNat ≤ 0xDFFF) = true := by simp; omega
    have hbasic : (c.toNat < 0xD800 || 0xDBFF < c.toNat) = true := by simp; omega
    have hescape : escape ⟨'u' :: (List.replicate (4 - (Nat.toDigits 16 c.toNat).length) '0' ++
        Nat.toDigits 16 c.toNat ++ rest), offset + 1⟩ = .ok (c, ⟨rest, offset + 1 + 1 + 4⟩) := by
      show unicodeEscape ⟨_, offset + 1 + 1⟩ = _
      unfold unicodeEscape
      rw [hhex]
      show (if _ then _ else if _ then _ else _) = _
      rw [if_neg hplane, if_pos hbasic, Char.ofNat_toNat]
      rfl
    show (escape ⟨'u' :: (List.replicate (4 - (Nat.toDigits 16 c.toNat).length) '0' ++
        Nat.toDigits 16 c.toNat ++ rest), offset + 1⟩ >>= _) = _
    rw [hescape]
    rfl
  · refine ⟨offset + c.utf8Size, ?_⟩
    simp [text, Nat.not_lt.1 hcontrol, Input.skip]

/-- **A string is read back**, up to its closing quote. -/
theorem text_jsonString (s done rest : List Char) (offset fuel : Nat) (h : s.length < fuel) :
    ∃ offset', text fuel done ⟨s.flatMap Value.jsonChar ++ '"' :: rest, offset⟩ =
      .ok (String.ofList (done.reverse ++ s), ⟨rest, offset'⟩) := by
  induction s generalizing done offset fuel with
  | nil =>
    obtain ⟨fuel, rfl⟩ := Nat.exists_eq_add_of_lt h
    exact ⟨_, by simp [text]; rfl⟩
  | cons c s ih =>
    obtain ⟨fuel, rfl⟩ : ∃ k, fuel = k + 1 := ⟨fuel - 1, by omega⟩
    obtain ⟨between, hstep⟩ :=
      text_jsonChar c fuel done (s.flatMap Value.jsonChar ++ '"' :: rest) offset
    obtain ⟨offset', hrest⟩ := ih (c :: done) between fuel (by simp at h; omega)
    refine ⟨offset', ?_⟩
    rw [List.flatMap_cons, List.append_assoc, hstep, hrest]
    simp

end JsonReader

namespace Value

/-- **A string is determined by its text**, whatever comes behind the closing quote. -/
theorem jsonString_inj {s t : String} {rest rest' : List Char}
    (h : jsonString s ++ rest = jsonString t ++ rest') : s = t ∧ rest = rest' := by
  simp only [jsonString, List.cons_append, List.append_assoc, List.nil_append, List.cons.injEq,
    true_and] at h
  set fuel := s.toList.length + t.toList.length + 1 with hfuel
  obtain ⟨offset, hs⟩ := JsonReader.text_jsonString s.toList [] rest 0 fuel (by omega)
  obtain ⟨offset', ht⟩ := JsonReader.text_jsonString t.toList [] rest' 0 fuel (by omega)
  rw [h, ht] at hs
  simp only [List.reverse_nil, List.nil_append, String.ofList_toList, Except.ok.injEq,
    Prod.mk.injEq, JsonReader.Input.mk.injEq] at hs
  exact ⟨hs.1.symm, hs.2.1.symm⟩

/-! ## Induction over values -/

/-- What holds of a list or a map when it holds of what is in it, and of all other values, holds of
every value. -/
@[elab_as_elim]
theorem induction {motive : Value → Prop} (nil : motive nil) (bool : ∀ b, motive (bool b))
    (int : ∀ i, motive (int i)) (float : ∀ x, motive (float x)) (str : ∀ s, motive (str s))
    (list : ∀ items, (∀ v ∈ items, motive v) → motive (list items))
    (map : ∀ entries, (∀ e ∈ entries, motive e.2) → motive (map entries)) (v : Value) : motive v :=
  v.rec nil bool int float str (fun items h => list items h) (fun entries h => map entries h)
    (fun _ h => by simp at h) (fun _ _ hv hrest w hw => by
      rcases List.mem_cons.1 hw with rfl | hw
      · exact hv
      · exact hrest w hw)
    (fun _ h => by simp at h) (fun _ _ hv hrest w hw => by
      rcases List.mem_cons.1 hw with rfl | hw
      · exact hv
      · exact hrest w hw)
    (fun _ _ h => h)

/-! ## What is kept -/

mutual

/-- What JSON text keeps of a value: doubles that are not finite become `nil`. -/
def legible : Value → Value
  | float x =>
    match Binary64.ofFloat x with
    | .finite .. => float x
    | _ => nil
  | list items => list (legibleItems items)
  | map entries => map (legibleEntries entries)
  | v => v

/-- What JSON text keeps of the items of a list. -/
def legibleItems : List Value → List Value
  | [] => []
  | v :: rest => legible v :: legibleItems rest

/-- What JSON text keeps of the entries of a map. -/
def legibleEntries : List (String × Value) → List (String × Value)
  | [] => []
  | (k, v) :: rest => (k, legible v) :: legibleEntries rest

end

lemma legibleItems_eq (items : List Value) : legibleItems items = items.map legible := by
  induction items with
  | nil => rfl
  | cons v rest ih => rw [legibleItems, ih, List.map_cons]

lemma legibleEntries_eq (entries : List (String × Value)) :
    legibleEntries entries = entries.map fun e => (e.1, e.2.legible) := by
  induction entries with
  | nil => rfl
  | cons e rest ih => rw [legibleEntries, ih, List.map_cons]

/-! ## Items and entries -/

/-- What may come behind a value. -/
def Follows (rest : List Char) : Prop := ∀ c ∈ rest.head?, c = ',' ∨ c = ']' ∨ c = '\x7d'

lemma Follows.stops {rest : List Char} (h : Follows rest) : Numeral.Stops rest := by
  intro c hc
  rcases h c hc with rfl | rfl | rfl <;> decide

/-- Texts with commas between them. -/
def separated {α : Type} (chars : α → List Char) : List α → List Char
  | [] => []
  | v :: rest => chars v ++ rest.flatMap fun w => ',' :: chars w

/-- An entry of a map, as JSON text. -/
def entryChars (e : String × Value) : List Char := jsonString e.1 ++ ':' :: jsonChars e.2

lemma jsonItems_eq (items : List Value) : jsonItems items = separated jsonChars items := by
  induction items with
  | nil => rfl
  | cons v rest ih =>
    cases rest with
    | nil => simp [jsonItems, separated]
    | cons w rest => rw [jsonItems, ih] <;> simp [separated]

lemma jsonEntries_eq (entries : List (String × Value)) :
    jsonEntries entries = separated entryChars entries := by
  induction entries with
  | nil => rfl
  | cons e rest ih =>
    cases rest with
    | nil => simp [jsonEntries, separated, entryChars]
    | cons w rest => rw [jsonEntries, ih] <;> simp [separated, entryChars]

section Separated

variable {α β : Type} {chars : α → List Char} {keep : α → β} {close : Char}
  {items items' : List α} {rest rest' : List Char}

/-- What is kept of something is determined by its text and what comes behind. -/
def SeparatesBy (chars : α → List Char) (keep : α → β) (v : α) : Prop :=
  ∀ w rest rest', Follows rest → Follows rest' → chars v ++ rest = chars w ++ rest' →
    keep v = keep w ∧ rest = rest'

/-- More items follow behind a comma, and the closing bracket when there are none. -/
lemma follows_more (hclose : close = ']' ∨ close = '\x7d') (items : List α) :
    Follows ((items.flatMap fun w => ',' :: chars w) ++ close :: rest) := by
  intro c hc
  cases items with
  | nil =>
    obtain rfl : close = c := by simpa using hc
    exact .inr hclose
  | cons v items =>
    obtain rfl : ',' = c := by simpa using hc
    exact .inl rfl

/-- More items, up to the bracket that closes the list. -/
lemma more_inj (hclose : close = ']' ∨ close = '\x7d')
    (hitems : ∀ v ∈ items, SeparatesBy chars keep v)
    (h : (items.flatMap fun w => ',' :: chars w) ++ close :: rest =
      (items'.flatMap fun w => ',' :: chars w) ++ close :: rest') :
    items.map keep = items'.map keep ∧ rest = rest' := by
  have hcomma : close ≠ ',' := by rcases hclose with rfl | rfl <;> decide
  induction items generalizing items' with
  | nil =>
    cases items' with
    | nil => exact ⟨rfl, (List.cons.inj h).2⟩
    | cons w items' => exact absurd (List.cons.inj h).1 hcomma
  | cons v items ih =>
    cases items' with
    | nil => exact absurd (List.cons.inj h).1.symm hcomma
    | cons w items' =>
      simp only [List.flatMap_cons, List.cons_append, List.append_assoc, List.cons.injEq,
        true_and] at h
      obtain ⟨hkeep, h⟩ :=
        hitems v (by simp) w _ _ (follows_more hclose _) (follows_more hclose _) h
      obtain ⟨hmap, hrest⟩ := ih (fun v hv => hitems v (by simp [hv])) h
      exact ⟨by rw [List.map_cons, List.map_cons, hkeep, hmap], hrest⟩

/-- **Items are determined by their text** up to the bracket that closes the list, provided that
none of them starts like it. -/
theorem separated_inj (hclose : close = ']' ∨ close = '\x7d')
    (hstart : ∀ v, ∃ c text, chars v = c :: text ∧ c ≠ close)
    (hitems : ∀ v ∈ items, SeparatesBy chars keep v)
    (h : separated chars items ++ close :: rest = separated chars items' ++ close :: rest') :
    items.map keep = items'.map keep ∧ rest = rest' := by
  have hnil : ∀ v items rest rest', separated chars [] ++ close :: rest ≠
      separated chars (v :: items) ++ close :: rest' := by
    intro v items rest rest' heq
    obtain ⟨c, text, hv, hne⟩ := hstart v
    simp only [separated, hv] at heq
    exact hne (List.cons.inj heq).1.symm
  cases items with
  | nil =>
    cases items' with
    | nil => exact ⟨rfl, (List.cons.inj h).2⟩
    | cons w items' => exact absurd h (hnil _ _ _ _)
  | cons v items =>
    cases items' with
    | nil => exact absurd h.symm (hnil _ _ _ _)
    | cons w items' =>
      refine more_inj hclose hitems ?_
      simpa [separated] using h

end Separated

/-! ## Kinds of text -/

/-- The kinds of JSON text. -/
inductive Kind where
  | null | word | number | string | list | map
  deriving DecidableEq

/-- The first character of a text tells its kind. -/
def Kind.ofHead (c : Char) : Kind :=
  if c = 'n' then .null
  else if c = 't' || c = 'f' then .word
  else if c = '"' then .string
  else if c = '[' then .list
  else if c = '\x7b' then .map
  else .number

/-- The kind of the text of a value. -/
def kind : Value → Kind
  | nil => .null
  | bool _ => .word
  | int _ => .number
  | float x =>
    match Binary64.ofFloat x with
    | .finite .. => .number
    | _ => .null
  | str _ => .string
  | list _ => .list
  | map _ => .map

lemma ofHead_number {c : Char} (h : c = '-' ∨ c.isDigit) :
    Kind.ofHead c = .number ∧ c ≠ ']' ∧ c ≠ '\x7d' := by
  rcases h with rfl | h
  · decide
  · have hne : ∀ d : Char, d.isDigit = false → c ≠ d := by
      rintro d hd rfl
      rw [hd] at h
      cases h
    simp [Kind.ofHead, hne 'n' rfl, hne 't' rfl, hne 'f' rfl, hne '"' rfl, hne '[' rfl,
      hne ']' rfl, hne '\x7b' rfl, hne '\x7d' rfl]

/-- A double is a number and kept as it is, or written and kept like `nil`. -/
lemma float_cases (x : Float) :
    ((∃ negative mantissa exponent, Binary64.ofFloat x = .finite negative mantissa exponent) ∧
      (float x).kind = .number ∧ (float x).legible = float x) ∨
    jsonChars (float x) = jsonChars nil ∧ (float x).kind = .null ∧ (float x).legible = nil := by
  rcases hx : Binary64.ofFloat x with - | negative | ⟨negative, mantissa, exponent⟩
  · exact .inr (by simp [jsonChars, jsonFloat, kind, legible, hx])
  · exact .inr (by simp [jsonChars, jsonFloat, kind, legible, hx])
  · exact .inl (by simp [kind, legible, hx])

/-- A text starts with a character of its kind, and never with a closing bracket. -/
lemma exists_jsonChars (v : Value) :
    ∃ c text, jsonChars v = c :: text ∧ Kind.ofHead c = v.kind ∧ c ≠ ']' ∧ c ≠ '\x7d' := by
  cases v with
  | nil => exact ⟨'n', _, rfl, by decide⟩
  | bool b =>
    cases b with
    | true => exact ⟨'t', _, rfl, by decide⟩
    | false => exact ⟨'f', _, rfl, by decide⟩
  | int i =>
    obtain ⟨c, text, htext, hhead, -⟩ := Numeral.head_signed (decide (i.toInt < 0))
      (n := Numeral.ofNat i.toInt.natAbs) (Decimal.digitsOf_ne_nil _)
    exact ⟨c, text, by rw [jsonChars, toList_intText, htext], ofHead_number hhead⟩
  | float x =>
    rcases float_cases x with ⟨⟨_, _, _, hx⟩, hkind, -⟩ | ⟨hnull, hkind, -⟩
    · obtain ⟨n, hn, -, hwhole, -⟩ := exists_jsonFloat hx
      obtain ⟨c, text, htext, hhead, -⟩ := Numeral.head_signed _ hwhole
      exact ⟨c, text, by rw [jsonChars, hn, htext], hkind ▸ ofHead_number hhead⟩
    · exact ⟨'n', _, hnull, hkind ▸ by decide⟩
  | str s => exact ⟨'"', _, rfl, rfl, by decide, by decide⟩
  | list items => exact ⟨'[', _, rfl, rfl, by decide, by decide⟩
  | map entries => exact ⟨'\x7b', _, rfl, rfl, by decide, by decide⟩

/-- Values with one text, up to what comes behind, are of one kind. -/
lemma kind_eq {v w : Value} {rest rest' : List Char}
    (h : jsonChars v ++ rest = jsonChars w ++ rest') : v.kind = w.kind := by
  obtain ⟨c, text, hv, hkind, -⟩ := exists_jsonChars v
  obtain ⟨c', text', hw, hkind', -⟩ := exists_jsonChars w
  rw [hv, hw] at h
  rw [← hkind, ← hkind', (List.cons.inj h).1]

/-! ## Values -/

/-- An entry is determined by its text if its value is. -/
lemma separatesBy_entry {e : String × Value} (h : SeparatesBy jsonChars legible e.2) :
    SeparatesBy entryChars (fun e => (e.1, e.2.legible)) e := by
  intro f rest rest' hrest hrest' heq
  simp only [entryChars, List.append_assoc, List.cons_append] at heq
  obtain ⟨hkey, heq⟩ := jsonString_inj heq
  obtain ⟨hvalue, hrest⟩ := h f.2 rest rest' hrest hrest' (List.cons.inj heq).2
  exact ⟨Prod.ext hkey hvalue, hrest⟩

/-- What a value of a kind is, as far as its text and what is kept of it go. -/
def Kind.Describes (w : Value) : Kind → Prop
  | null => jsonChars w = jsonChars nil ∧ w.legible = nil
  | word => ∃ b, w = .bool b
  | number => (∃ i, w = .int i) ∨ ∃ x, w = .float x ∧ w.legible = w ∧
      ∃ negative mantissa exponent, Binary64.ofFloat x = .finite negative mantissa exponent
  | string => ∃ s, w = .str s
  | list => ∃ items, w = .list items
  | map => ∃ entries, w = .map entries

lemma describes {w : Value} {kind : Kind} (h : kind = w.kind) : kind.Describes w := by
  subst h
  cases w with
  | nil => exact ⟨rfl, rfl⟩
  | bool b => exact ⟨b, rfl⟩
  | int i => exact .inl ⟨i, rfl⟩
  | float x =>
    rcases float_cases x with ⟨hfinite, hkind, hkept⟩ | ⟨hnull, hkind, hkept⟩
    · rw [hkind]
      exact .inr ⟨x, rfl, hkept, hfinite⟩
    · rw [hkind]
      exact ⟨hnull, hkept⟩
  | str s => exact ⟨s, rfl⟩
  | list items => exact ⟨items, rfl⟩
  | map entries => exact ⟨entries, rfl⟩

/-- **What JSON text keeps of a value is determined by its text** and what comes behind it. -/
theorem separatesBy_legible (v : Value) : SeparatesBy jsonChars legible v := by
  induction v using Value.induction with
  | nil =>
    intro w rest rest' _ _ h
    obtain ⟨hnull, hw⟩ : Kind.null.Describes w := describes (kind_eq h)
    rw [hnull] at h
    exact ⟨hw.symm, List.append_cancel_left h⟩
  | bool b =>
    intro w rest rest' _ _ h
    obtain ⟨b', rfl⟩ : Kind.word.Describes w := describes (kind_eq h)
    cases b <;> cases b' <;> simp_all [jsonChars]
  | int i =>
    intro w rest rest' hrest hrest' h
    have hw : Kind.number.Describes w := describes (kind_eq h)
    obtain ⟨j, rfl⟩ | ⟨y, rfl, -, _, _, _, hy⟩ := hw
    · obtain ⟨rfl, heq⟩ := intText_inj h hrest.stops hrest'.stops
      exact ⟨rfl, heq⟩
    · exact absurd h (intText_ne_jsonFloat hy hrest.stops hrest'.stops)
  | float x =>
    intro w rest rest' hrest hrest' h
    rcases float_cases x with ⟨⟨_, _, _, hx⟩, hkind, -⟩ | ⟨hnull, hkind, hkept⟩
    · have hw : Kind.number.Describes w := describes (hkind.symm.trans (kind_eq h))
      obtain ⟨j, rfl⟩ | ⟨y, rfl, -, _, _, _, hy⟩ := hw
      · exact absurd h.symm (intText_ne_jsonFloat hx hrest'.stops hrest.stops)
      · obtain ⟨rfl, heq⟩ := jsonFloat_inj hx hy h hrest.stops hrest'.stops
        exact ⟨rfl, heq⟩
    · obtain ⟨hnull', hw⟩ : Kind.null.Describes w := describes (hkind.symm.trans (kind_eq h))
      rw [hnull, hnull'] at h
      exact ⟨hkept.trans hw.symm, List.append_cancel_left h⟩
  | str s =>
    intro w rest rest' _ _ h
    obtain ⟨t, rfl⟩ : Kind.string.Describes w := describes (kind_eq h)
    obtain ⟨rfl, heq⟩ := jsonString_inj h
    exact ⟨rfl, heq⟩
  | list items ih =>
    intro w rest rest' _ _ h
    obtain ⟨items', rfl⟩ : Kind.list.Describes w := describes (kind_eq h)
    simp only [jsonChars, jsonItems_eq, List.cons_append, List.append_assoc, List.nil_append,
      List.cons.injEq, true_and] at h
    obtain ⟨hitems, heq⟩ := separated_inj (.inl rfl)
      (fun v => by
        obtain ⟨c, text, hv, -, hne, -⟩ := exists_jsonChars v
        exact ⟨c, text, hv, hne⟩) ih h
    exact ⟨by rw [legible, legible, legibleItems_eq, legibleItems_eq, hitems], heq⟩
  | map entries ih =>
    intro w rest rest' _ _ h
    obtain ⟨entries', rfl⟩ : Kind.map.Describes w := describes (kind_eq h)
    simp only [jsonChars, jsonEntries_eq, List.cons_append, List.append_assoc, List.nil_append,
      List.cons.injEq, true_and] at h
    obtain ⟨hentries, heq⟩ := separated_inj (.inr rfl) (fun e => ⟨'"', _, rfl, by decide⟩)
      (fun e he => separatesBy_entry (ih e he)) h
    exact ⟨by rw [legible, legible, legibleEntries_eq, legibleEntries_eq, hentries], heq⟩

lemma separated_map {α β : Type} (chars : β → List Char) (f : α → β) (items : List α) :
    separated chars (items.map f) = separated (fun v => chars (f v)) items := by
  cases items with
  | nil => rfl
  | cons v rest => simp [separated, List.flatMap_map]

lemma separated_congr {α : Type} {chars : α → List Char} (chars' : α → List Char) {items : List α}
    (h : ∀ v ∈ items, chars v = chars' v) : separated chars items = separated chars' items := by
  cases items with
  | nil => rfl
  | cons v rest =>
    have hrest : ∀ w ∈ rest, ',' :: chars w = ',' :: chars' w := fun w hw => by
      rw [h w (by simp [hw])]
    rw [separated, separated, h v (by simp), List.flatMap_congr hrest]

/-- What JSON text keeps of a value has the same text. -/
lemma jsonChars_legible (v : Value) : jsonChars v.legible = jsonChars v := by
  induction v using Value.induction with
  | nil => rfl
  | bool _ => rfl
  | int _ => rfl
  | float x =>
    rcases float_cases x with ⟨-, -, hx⟩ | ⟨hnull, -, hx⟩
    · rw [hx]
    · rw [hx, hnull]
  | str _ => rfl
  | list items ih =>
    simp only [legible, legibleItems_eq, jsonChars, jsonItems_eq, separated_map]
    rw [separated_congr _ ih]
  | map entries ih =>
    simp only [legible, legibleEntries_eq, jsonChars, jsonEntries_eq, separated_map]
    rw [separated_congr entryChars fun e he => by simp only [entryChars, ih e he]]

/-- **Values have the same JSON text exactly when JSON keeps the same of them.** -/
theorem toJson_inj {v w : Value} : v.toJson = w.toJson ↔ v.legible = w.legible := by
  constructor
  · intro h
    have hchars : jsonChars v ++ [] = jsonChars w ++ [] := by
      rw [List.append_nil, List.append_nil]
      exact String.ofList_inj.1 h
    exact (separatesBy_legible v w [] [] (by simp [Follows]) (by simp [Follows]) hchars).1
  · intro h
    rw [toJson, toJson, ← jsonChars_legible v, h, jsonChars_legible]

end Value

end BracketTemplate
