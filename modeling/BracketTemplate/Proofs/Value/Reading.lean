import Mathlib
import BracketTemplate.Proofs.Value.Equality
import BracketTemplate.Proofs.Value.Written

/-!
# Values read back from their JSON text

A value without doubles is read back from its JSON text, as long as it is not nested more deeply
than the reader allows (`ReadsBack`).  The reader takes the text of the value and stops at the comma
or the bracket behind it, so that items and entries are read back one after another; its two loops
differ in what one part is (`TakesPart`) and in the bracket that closes them (`Closes`).

It counts its steps, and twice as many as the text has characters are enough.
-/

namespace BracketTemplate

/-! ## Numbers -/

namespace Decimal

/-- The digits of a number do not start with a zero, unless it is zero itself. -/
lemma head?_digitsOf {n : Nat} (h : 0 < n) : (digitsOf n).head? ≠ some '0' := by
  induction n using Nat.strong_induction_on with
  | _ n ih =>
    by_cases hsmall : n < 10
    · rw [digitsOf, Nat.toDigits_of_lt_base hsmall]
      interval_cases n <;> decide
    · have hfront : digitsOf n = digitsOf (n / 10) ++ digitsOf (n % 10) := by
        have hsplit := Nat.toDigits_append_toDigits (b := 10) (n := n / 10) (d := n % 10)
          (by norm_num) (by omega) (by omega)
        rw [Nat.div_add_mod] at hsplit
        exact hsplit.symm
      rw [hfront, List.head?_append_of_ne_nil _ (digitsOf_ne_nil _)]
      exact ih _ (by omega) (by omega)

lemma le_ofDigitChars (digits : List Char) (start : Nat) :
    start ≤ Nat.ofDigitChars 10 digits start := by
  induction digits generalizing start with
  | nil => exact le_rfl
  | cons d digits ih =>
    rw [Nat.ofDigitChars_cons]
    refine le_trans ?_ (ih _)
    omega

end Decimal

namespace JsonReader

variable {rest : List Char} {offset fuel depth : Nat}

/-- Digits that fit are all taken into the number. -/
lemma accumulate_eq {digits : List Char} {start : Nat}
    (hfits : Nat.ofDigitChars 10 digits start < 2 ^ 64) (taken : Nat) :
    accumulate start taken digits = (Nat.ofDigitChars 10 digits start, taken + digits.length) := by
  induction digits generalizing start taken with
  | nil => rfl
  | cons d digits ih =>
    rw [Nat.ofDigitChars_cons, Nat.mul_comm] at hfits ⊢
    have hnext : start * 10 + (d.toNat - '0'.toNat) < twoTo 64 :=
      (Decimal.le_ofDigitChars digits _).trans_lt hfits
    rw [accumulate, if_pos hnext, ih hfits, List.length_cons]
    simp only [Prod.mk.injEq, true_and]
    omega

/-- The digits of a number are taken together. -/
lemma digitsOf_append {n : Nat} (h : ∀ c ∈ rest.head?, c.isDigit = false) :
    digitsOf ⟨Decimal.digitsOf n ++ rest, offset⟩ = Decimal.digitsOf n := by
  unfold digitsOf
  rw [List.takeWhile_append_of_pos fun c => Decimal.isDigit_of_mem_digitsOf]
  cases rest with
  | nil => exact List.append_nil _
  | cons c rest =>
    rw [List.takeWhile_cons_of_neg (by simp [h c rfl]), List.append_nil]

/-- What may follow a value goes on no number. -/
lemma not_goesOn (h : Value.Follows rest) : (∀ c ∈ rest.head?, c.isDigit = false) ∧
    ∀ more, rest ≠ '.' :: more ∧ rest ≠ 'e' :: more ∧ rest ≠ 'E' :: more := by
  constructor
  · intro c hc
    rcases h c hc with rfl | rfl | rfl <;> rfl
  · intro more
    refine ⟨?_, ?_, ?_⟩ <;> rintro rfl <;> simpa using h _ rfl

/-- The integer that digits with a sign stand for. -/
lemma number_digitsOf (negative : Bool) {n : Nat} (hrest : Value.Follows rest)
    (hnegative : negative = true → 0 < n ∧ n ≤ 2 ^ 63) (hpositive : negative = false → n < 2 ^ 63)
    (offset : Nat) :
    ∃ offset', number negative ⟨Decimal.digitsOf n ++ rest, offset⟩ =
      .ok (.int (Int64.ofInt (if negative then -n else n)), ⟨rest, offset'⟩) := by
  obtain ⟨d, more, hdigits⟩ := List.exists_cons_of_ne_nil (Decimal.digitsOf_ne_nil n)
  have hd : d.isDigit = true := Decimal.isDigit_of_mem_digitsOf (hdigits ▸ List.mem_cons_self)
  have htaken : digitsOf ⟨Decimal.digitsOf n ++ rest, offset⟩ = Decimal.digitsOf n :=
    digitsOf_append (not_goesOn hrest).1
  have hsmall : n < 2 ^ 64 := by
    cases negative with
    | true =>
      have hle := (hnegative rfl).2
      omega
    | false =>
      have hlt := hpositive rfl
      omega
  have haccumulate : accumulate 0 0 (Decimal.digitsOf n) = (n, (Decimal.digitsOf n).length) := by
    have hvalue : Nat.ofDigitChars 10 (Decimal.digitsOf n) 0 = n := Decimal.ofDigits_digitsOf n
    rw [accumulate_eq (hvalue.symm ▸ hsmall), hvalue, Nat.zero_add]
  have hzero : (d = '0' && (Decimal.digitsOf n).length != 1) = false := by
    by_contra hne
    rw [Bool.not_eq_false, Bool.and_eq_true, decide_eq_true_eq, bne_iff_ne] at hne
    rcases Nat.eq_zero_or_pos n with rfl | hpos
    · exact hne.2 rfl
    · refine Decimal.head?_digitsOf hpos ?_
      rw [hdigits, hne.1]
      rfl
  have hbehind : Input.after ⟨Decimal.digitsOf n ++ rest, offset⟩ (Decimal.digitsOf n).length =
      ⟨rest, offset + (Decimal.digitsOf n).length⟩ := by
    rw [Input.after, List.drop_left]
  refine ⟨offset + (Decimal.digitsOf n).length, ?_⟩
  unfold number
  simp only [htaken, haccumulate, hbehind]
  rw [hdigits] at hzero ⊢
  simp only [List.cons_append, hd, hzero, Bool.not_true, Bool.false_eq_true, if_false]
  split
  · next more => exact absurd rfl ((not_goesOn hrest).2 more).1
  · next more => exact absurd rfl ((not_goesOn hrest).2 more).2.1
  · next more => exact absurd rfl ((not_goesOn hrest).2 more).2.2
  · rw [← hdigits]
    simp only [bne_self_eq_false, Bool.false_eq_true, if_false]
    cases negative with
    | true =>
      obtain ⟨hpos, hle⟩ := hnegative rfl
      have hfits : (n == 0 || decide (twoTo 63 < n)) = false := by
        rw [Bool.or_eq_false_iff]
        exact ⟨by simpa using hpos.ne', decide_eq_false (not_lt.2 hle)⟩
      simp [hfits]
    | false =>
      have hfits : n < twoTo 63 := hpositive rfl
      simp [hfits, Int64.ofInt_eq_ofNat]

/-- What comes next after something has been read. -/
lemma read_bind {α β : Type} {x : Except Error α} {a : α} (h : x = .ok a)
    (next : α → Except Error β) : x >>= next = next a := by
  rw [h]
  rfl

/-! ## Heads -/

lemma skipSpaces_cons {c : Char} (hc : isSpace c = false) (rest : List Char) (offset : Nat) :
    skipSpaces ⟨c :: rest, offset⟩ = ⟨c :: rest, offset⟩ := by
  simp [skipSpaces, hc]

lemma ne_of_isDigit {c d : Char} (hc : c.isDigit = true) (hd : d.isDigit = false) : c ≠ d := by
  rintro rfl
  rw [hd] at hc
  cases hc

lemma isSpace_of_isDigit {c : Char} (hc : c.isDigit = true) : isSpace c = false := by
  simp [isSpace, ne_of_isDigit hc (d := ' ') rfl, ne_of_isDigit hc (d := '\n') rfl,
    ne_of_isDigit hc (d := '\t') rfl, ne_of_isDigit hc (d := '\r') rfl]

/-- A digit starts a number. -/
lemma value_digit {c : Char} (hc : c.isDigit = true) (fuel depth : Nat) (rest : List Char)
    (offset : Nat) :
    value (fuel + 1) depth ⟨c :: rest, offset⟩ = number false ⟨c :: rest, offset⟩ := by
  have hne : ∀ d : Char, d.isDigit = false → c ≠ d := fun d => ne_of_isDigit hc
  rw [value, skipSpaces_cons (isSpace_of_isDigit hc)]
  dsimp only
  split
  · next h => cases h
  · next h => exact absurd (List.cons.inj h).1 (hne 'n' rfl)
  · next h => exact absurd (List.cons.inj h).1 (hne 't' rfl)
  · next h => exact absurd (List.cons.inj h).1 (hne 'f' rfl)
  · next h => exact absurd (List.cons.inj h).1 (hne '-' rfl)
  · next h => exact absurd (List.cons.inj h).1 (hne '"' rfl)
  · next h => exact absurd (List.cons.inj h).1 (hne '[' rfl)
  · next h => exact absurd (List.cons.inj h).1 (hne '\x7b' rfl)
  · next h =>
    obtain ⟨rfl, rfl⟩ := List.cons.inj h
    rw [if_pos hc]

/-! ## Steps of the reader inside of lists and maps -/

section Steps

variable {c : Char} {done : List Value} {written : List (String × Value)}

lemma items_close (fuel depth : Nat) (first : Bool) (done : List Value) (rest : List Char)
    (offset : Nat) :
    items (fuel + 1) depth first done ⟨']' :: rest, offset⟩ =
      .ok (done.reverse, ⟨rest, offset + 1⟩) := by
  rw [items, skipSpaces_cons rfl]
  rfl

lemma items_first (hspace : isSpace c = false) (hbracket : c ≠ ']') :
    items (fuel + 1) depth true done ⟨c :: rest, offset⟩ =
      (value fuel depth ⟨c :: rest, offset⟩ >>= fun r =>
        items fuel depth false (r.1 :: done) r.2) := by
  rw [items, skipSpaces_cons hspace]
  dsimp only
  split
  · next h => cases h
  · next h => exact absurd (List.cons.inj h).1 hbracket
  · rw [if_pos rfl]

lemma items_comma (hspace : isSpace c = false) (hbracket : c ≠ ']') :
    items (fuel + 1) depth false done ⟨',' :: c :: rest, offset⟩ =
      (value fuel depth ⟨c :: rest, offset + 1⟩ >>= fun r =>
        items fuel depth false (r.1 :: done) r.2) := by
  rw [items, skipSpaces_cons rfl]
  dsimp only [Input.skip]
  rw [skipSpaces_cons hspace]
  split
  · next h => cases h
  · next h => cases (List.cons.inj h).1
  · next h =>
    obtain ⟨rfl, -⟩ := List.cons.inj h
    rw [if_neg (by decide), if_pos rfl]
    split
    · next h => exact absurd (List.cons.inj h).1 hbracket
    · next h => cases h
    · rfl

lemma entries_close (fuel depth : Nat) (first : Bool) (written : List (String × Value))
    (rest : List Char) (offset : Nat) :
    entries (fuel + 1) depth first written ⟨'\x7d' :: rest, offset⟩ =
      .ok (written.reverse, ⟨rest, offset + 1⟩) := by
  rw [entries, skipSpaces_cons rfl]
  rfl

lemma entries_first :
    entries (fuel + 1) depth true written ⟨'"' :: rest, offset⟩ =
      (entry fuel depth ⟨'"' :: rest, offset⟩ >>= fun r =>
        entries fuel depth false (r.1 :: written) r.2) := by
  rw [entries, skipSpaces_cons rfl]
  rfl

lemma entries_comma :
    entries (fuel + 1) depth false written ⟨',' :: '"' :: rest, offset⟩ =
      (entry fuel depth ⟨'"' :: rest, offset + 1⟩ >>= fun r =>
        entries fuel depth false (r.1 :: written) r.2) := by
  rw [entries, skipSpaces_cons rfl]
  dsimp only [Input.skip]
  rw [skipSpaces_cons rfl]
  rfl

end Steps

end JsonReader

namespace Value

open JsonReader

variable {v : Value} {rest : List Char}

/-! ## Values without doubles -/

/-- A value without doubles. Every name of a map is there once. -/
inductive Exact : Value → Prop
  | nil : Exact nil
  | bool (b : Bool) : Exact (bool b)
  | int (i : Int64) : Exact (int i)
  | str (s : String) : Exact (str s)
  | list {items : List Value} (hitems : ∀ v ∈ items, Exact v) : Exact (list items)
  | map {entries : List (String × Value)} (hnames : (entries.map (·.1)).Nodup)
      (hentries : ∀ p ∈ entries, Exact p.2) : Exact (map entries)

lemma depthItems_le {items : List Value} {n : Nat} :
    depthItems items ≤ n ↔ ∀ v ∈ items, depth v ≤ n := by
  induction items with
  | nil => simp [depthItems]
  | cons v rest ih => simp [depthItems, ih]

/-- A key that is written once stays where it is. -/
lemma ofEntries_of_nodup {entries : List (String × Value)} (h : (entries.map (·.1)).Nodup) :
    ofEntries entries = entries := by
  induction entries using List.reverseRecOn with
  | nil => rfl
  | append_singleton entries entry ih =>
    rw [List.map_append, List.nodup_append] at h
    have hnew : entry.1 ∉ entries.map (·.1) := fun hmem => h.2.2 _ hmem entry.1 (by simp) rfl
    rw [ofEntries_concat, ih h.1, insert_of_notMem hnew]

/-- A text starts with a character that is neither a blank nor a closing bracket. -/
lemma Exact.head (h : v.Exact) :
    ∃ c text, jsonChars v = c :: text ∧ isSpace c = false ∧ c ≠ ']' := by
  cases h with
  | nil => exact ⟨'n', _, rfl, by decide⟩
  | bool b =>
    cases b with
    | true => exact ⟨'t', _, rfl, by decide⟩
    | false => exact ⟨'f', _, rfl, by decide⟩
  | int i =>
    obtain ⟨c, text, htext, hhead, -⟩ := Numeral.head_signed (decide (i.toInt < 0))
      (n := Numeral.ofNat i.toInt.natAbs) (Decimal.digitsOf_ne_nil _)
    refine ⟨c, text, by rw [jsonChars, toList_intText, htext], ?_, (ofHead_number hhead).2.1⟩
    rcases hhead with rfl | hdigit
    · rfl
    · exact isSpace_of_isDigit hdigit
  | str s => exact ⟨'"', _, rfl, by decide⟩
  | list hitems => exact ⟨'[', _, rfl, by decide⟩
  | map hnames hentries => exact ⟨'\x7b', _, rfl, by decide⟩

lemma Exact.length_pos (h : v.Exact) : 0 < (jsonChars v).length := by
  obtain ⟨c, text, htext, -⟩ := h.head
  rw [htext]
  exact Nat.succ_pos _

/-! ## One value -/

/-- The reader takes the text of a value, and stops behind it. -/
def ReadsBack (v : Value) : Prop :=
  ∀ fuel depth rest offset, 2 * (jsonChars v).length ≤ fuel → v.depth < depth → Follows rest →
    ∃ offset', value fuel depth ⟨jsonChars v ++ rest, offset⟩ = .ok (v, ⟨rest, offset'⟩)

lemma exists_succ {n fuel : Nat} (hfuel : 2 * n ≤ fuel) (h : 0 < n) : ∃ k, fuel = k + 1 :=
  Nat.exists_eq_add_of_le' (show 1 ≤ fuel by omega)

lemma readsBack_nil : ReadsBack nil := by
  intro fuel depth rest offset hfuel _ _
  obtain ⟨fuel, rfl⟩ := exists_succ hfuel (by decide)
  show ∃ offset', value (fuel + 1) depth ⟨'n' :: 'u' :: 'l' :: 'l' :: rest, offset⟩ = _
  rw [value, skipSpaces_cons rfl]
  exact ⟨_, rfl⟩

lemma readsBack_bool (b : Bool) : ReadsBack (bool b) := by
  intro fuel depth rest offset hfuel _ _
  cases b with
  | true =>
    obtain ⟨fuel, rfl⟩ := exists_succ hfuel (by decide)
    show ∃ offset', value (fuel + 1) depth ⟨'t' :: 'r' :: 'u' :: 'e' :: rest, offset⟩ = _
    rw [value, skipSpaces_cons rfl]
    exact ⟨_, rfl⟩
  | false =>
    obtain ⟨fuel, rfl⟩ := exists_succ hfuel (by decide)
    show ∃ offset', value (fuel + 1) depth ⟨'f' :: 'a' :: 'l' :: 's' :: 'e' :: rest, offset⟩ = _
    rw [value, skipSpaces_cons rfl]
    exact ⟨_, rfl⟩

/-- **An integer is read back**, the least and the greatest included. -/
lemma readsBack_int (i : Int64) : ReadsBack (int i) := by
  intro fuel depth rest offset hfuel _ hrest
  have htext : jsonChars (int i) =
      (Numeral.ofNat i.toInt.natAbs).signed (decide (i.toInt < 0)) := toList_intText i
  have hle := i.toInt_lt
  have hge := i.le_toInt
  obtain ⟨fuel, rfl⟩ := exists_succ hfuel (Exact.int i).length_pos
  rw [htext, Numeral.signed, Numeral.text_ofNat]
  by_cases hneg : i.toInt < 0
  · rw [if_pos (decide_eq_true hneg)]
    obtain ⟨offset', hnumber⟩ := number_digitsOf true (n := i.toInt.natAbs) hrest
      (fun _ => ⟨by omega, by omega⟩) (fun h => by cases h) (offset + 1)
    refine ⟨offset', ?_⟩
    rw [List.cons_append, value, skipSpaces_cons rfl]
    refine hnumber.trans ?_
    have hvalue : (if true = true then -(i.toInt.natAbs : Int) else i.toInt.natAbs) = i.toInt := by
      rw [if_pos rfl]
      omega
    rw [hvalue, Int64.ofInt_toInt]
  · rw [if_neg (by simpa using hneg)]
    obtain ⟨d, more, hdigits⟩ :=
      List.exists_cons_of_ne_nil (Decimal.digitsOf_ne_nil i.toInt.natAbs)
    have hd : d.isDigit = true := Decimal.isDigit_of_mem_digitsOf (hdigits ▸ List.mem_cons_self)
    obtain ⟨offset', hnumber⟩ := number_digitsOf false (n := i.toInt.natAbs) hrest
      (fun h => by cases h) (fun _ => by omega) offset
    refine ⟨offset', ?_⟩
    rw [hdigits, List.cons_append, value_digit hd, ← List.cons_append, ← hdigits, hnumber]
    have hvalue : (if false = true then -(i.toInt.natAbs : Int) else i.toInt.natAbs) = i.toInt := by
      rw [if_neg (by decide)]
      omega
    rw [hvalue, Int64.ofInt_toInt]

/-- No character of a string is written with nothing. -/
lemma length_le_flatMap_jsonChar (s : List Char) : s.length ≤ (s.flatMap jsonChar).length := by
  induction s with
  | nil => exact le_rfl
  | cons c s ih =>
    have hc : 1 ≤ (jsonChar c).length := by
      unfold jsonChar
      split_ifs <;> simp
    rw [List.flatMap_cons, List.length_append, List.length_cons]
    omega

/-- A string is read back behind its opening quote. -/
lemma text_quoted {fuel : Nat} (s : String) (rest : List Char) (offset : Nat)
    (hfuel : (s.toList.flatMap jsonChar ++ '"' :: rest).length < fuel) :
    ∃ offset', text fuel [] ⟨s.toList.flatMap jsonChar ++ '"' :: rest, offset⟩ =
      .ok (s, ⟨rest, offset'⟩) := by
  have hlength := length_le_flatMap_jsonChar s.toList
  rw [List.length_append] at hfuel
  obtain ⟨offset', htext⟩ := text_jsonString s.toList [] rest offset fuel (by omega)
  refine ⟨offset', ?_⟩
  rw [htext, List.reverse_nil, List.nil_append, String.ofList_toList]

lemma readsBack_str (s : String) : ReadsBack (str s) := by
  intro fuel depth rest offset hfuel _ _
  obtain ⟨fuel, rfl⟩ := exists_succ hfuel (by simp [jsonChars, jsonString])
  obtain ⟨offset', htext⟩ := text_quoted s rest (offset + 1) (Nat.lt_succ_self _)
  have hquoted : jsonChars (str s) ++ rest = '"' :: (s.toList.flatMap jsonChar ++ '"' :: rest) := by
    simp [jsonChars, jsonString]
  refine ⟨offset', ?_⟩
  rw [hquoted, value, skipSpaces_cons rfl]
  exact read_bind htext _

/-! ## Parts up to a closing bracket -/

section Parts

variable {α : Type} {loop : Nat → Bool → List α → Input → Except Error (List α × Input)}
  {close : Char} {chars : α → List Char}

/-- A loop over parts is done at the closing bracket. -/
def Closes (loop : Nat → Bool → List α → Input → Except Error (List α × Input)) (close : Char) :
    Prop :=
  ∀ fuel first done rest offset, loop (fuel + 1) first done ⟨close :: rest, offset⟩ =
    .ok (done.reverse, ⟨rest, offset + 1⟩)

/-- A loop over parts takes one of them, and goes on behind it. -/
structure TakesPart (loop : Nat → Bool → List α → Input → Except Error (List α × Input))
    (chars : α → List Char) (v : α) : Prop where
  first : ∀ fuel done rest offset, 2 * (chars v).length ≤ fuel → Follows rest →
    ∃ offset', loop (fuel + 1) true done ⟨chars v ++ rest, offset⟩ =
      loop fuel false (v :: done) ⟨rest, offset'⟩
  comma : ∀ fuel done rest offset, 2 * (chars v).length ≤ fuel → Follows rest →
    ∃ offset', loop (fuel + 1) false done ⟨',' :: (chars v ++ rest), offset⟩ =
      loop fuel false (v :: done) ⟨rest, offset'⟩

/-- The parts behind the first one are read back, each behind its comma. -/
lemma loop_more (hclose : close = ']' ∨ close = '\x7d') (hcloses : Closes loop close)
    {more : List α} (htakes : ∀ v ∈ more, TakesPart loop chars v) (fuel : Nat) (done : List α)
    (rest : List Char) (offset : Nat)
    (hfuel : 2 * (more.flatMap fun w => ',' :: chars w).length + 1 ≤ fuel) :
    ∃ offset', loop fuel false done
      ⟨(more.flatMap fun w => ',' :: chars w) ++ close :: rest, offset⟩ =
        .ok (done.reverse ++ more, ⟨rest, offset'⟩) := by
  induction more generalizing fuel done offset with
  | nil =>
    obtain ⟨fuel, rfl⟩ := Nat.exists_eq_add_of_le' (show 1 ≤ fuel by omega)
    rw [List.flatMap_nil, List.nil_append, hcloses, List.append_nil]
    exact ⟨_, rfl⟩
  | cons v more ih =>
    obtain ⟨fuel, rfl⟩ := Nat.exists_eq_add_of_le' (show 1 ≤ fuel by omega)
    rw [List.forall_mem_cons] at htakes
    simp only [List.flatMap_cons, List.cons_append, List.append_assoc, List.length_cons,
      List.length_append] at hfuel ⊢
    obtain ⟨between, hv⟩ := htakes.1.comma fuel done
      ((more.flatMap fun w => ',' :: chars w) ++ close :: rest) offset (by omega)
      (follows_more hclose more)
    obtain ⟨offset', hmore⟩ := ih htakes.2 fuel (v :: done) between (by omega)
    refine ⟨offset', hv.trans (hmore.trans ?_)⟩
    rw [List.reverse_cons, List.append_assoc, List.singleton_append]

/-- Parts with commas between them are read back behind the opening bracket. -/
lemma loop_separated (hclose : close = ']' ∨ close = '\x7d') (hcloses : Closes loop close)
    {parts : List α} (htakes : ∀ v ∈ parts, TakesPart loop chars v) (fuel : Nat) (rest : List Char)
    (offset : Nat) (hfuel : 2 * (separated chars parts).length + 2 ≤ fuel) :
    ∃ offset', loop fuel true [] ⟨separated chars parts ++ close :: rest, offset⟩ =
      .ok (parts, ⟨rest, offset'⟩) := by
  obtain ⟨fuel, rfl⟩ := Nat.exists_eq_add_of_le' (show 1 ≤ fuel by omega)
  cases parts with
  | nil => exact ⟨offset + 1, hcloses ..⟩
  | cons v more =>
    rw [List.forall_mem_cons] at htakes
    rw [separated, List.length_append] at hfuel
    rw [separated, List.append_assoc]
    obtain ⟨between, hv⟩ := htakes.1.first fuel []
      ((more.flatMap fun w => ',' :: chars w) ++ close :: rest) offset (by omega)
      (follows_more hclose more)
    obtain ⟨offset', hmore⟩ := loop_more hclose hcloses htakes.2 fuel [v] rest between (by omega)
    exact ⟨offset', hv.trans hmore⟩

end Parts

/-! ## Lists and maps -/

/-- An item is read back, be it the first one or behind a comma. -/
lemma takesPart_item (hexact : v.Exact) (hreads : ReadsBack v) {depth : Nat}
    (hdepth : v.depth < depth) : TakesPart (fun fuel => items fuel depth) jsonChars v := by
  obtain ⟨c, text, htext, hspace, hbracket⟩ := hexact.head
  constructor
  · intro fuel done rest offset hfuel hrest
    obtain ⟨offset', hvalue⟩ := hreads fuel depth rest offset hfuel hdepth hrest
    refine ⟨offset', ?_⟩
    rw [htext, List.cons_append] at hvalue ⊢
    exact (items_first hspace hbracket).trans (read_bind hvalue _)
  · intro fuel done rest offset hfuel hrest
    obtain ⟨offset', hvalue⟩ := hreads fuel depth rest (offset + 1) hfuel hdepth hrest
    refine ⟨offset', ?_⟩
    rw [htext, List.cons_append] at hvalue ⊢
    exact (items_comma hspace hbracket).trans (read_bind hvalue _)

lemma readsBack_list {vs : List Value} (hexact : ∀ v ∈ vs, v.Exact)
    (hreads : ∀ v ∈ vs, ReadsBack v) : ReadsBack (list vs) := by
  intro fuel depth rest offset hfuel hdepth _
  obtain ⟨fuel, rfl⟩ := exists_succ hfuel (Exact.list hexact).length_pos
  simp only [jsonChars, jsonItems_eq, List.cons_append, List.append_assoc, List.nil_append,
    List.length_cons, List.length_append, List.length_nil] at hfuel ⊢
  rw [Value.depth] at hdepth
  have htakes : ∀ v ∈ vs, TakesPart (fun fuel => items fuel (depth - 1)) jsonChars v := fun v hv =>
    takesPart_item (hexact v hv) (hreads v hv) ((depthItems_le.1 le_rfl v hv).trans_lt (by omega))
  obtain ⟨offset', hitems⟩ := loop_separated (.inl rfl) (fun fuel => items_close fuel _) htakes fuel
    rest (offset + 1) (by omega)
  refine ⟨offset', ?_⟩
  rw [value, skipSpaces_cons rfl]
  show (if depth ≤ 1 then _ else _) = _
  rw [if_neg (by omega)]
  exact read_bind hitems _

/-- An entry is read back from its key on. -/
lemma entry_entryChars {e : String × Value} (hexact : e.2.Exact) (hreads : ReadsBack e.2)
    {depth : Nat} (hdepth : e.2.depth < depth) (fuel : Nat) (offset : Nat)
    (hfuel : 2 * (entryChars e).length ≤ fuel) (hrest : Follows rest) :
    ∃ offset', entry fuel depth ⟨entryChars e ++ rest, offset⟩ = .ok (e, ⟨rest, offset'⟩) := by
  obtain ⟨c, text, htext, hspace, -⟩ := hexact.head
  simp only [entryChars, jsonString, List.cons_append, List.append_assoc, List.nil_append,
    List.length_cons, List.length_append] at hfuel ⊢
  obtain ⟨fuel, rfl⟩ := Nat.exists_eq_add_of_le' (show 1 ≤ fuel by omega)
  obtain ⟨between, hkey⟩ := text_quoted e.1 (':' :: (jsonChars e.2 ++ rest)) (offset + 1)
    (Nat.lt_succ_of_lt (Nat.lt_succ_self _))
  obtain ⟨offset', hvalue⟩ := hreads fuel depth rest (between + 1) (by omega) hdepth hrest
  refine ⟨offset', ?_⟩
  rw [entry]
  refine (read_bind hkey _).trans ?_
  dsimp only
  rw [skipSpaces_cons rfl]
  exact read_bind hvalue _

/-- An entry is read back, be it the first one or behind a comma. -/
lemma takesPart_entry {e : String × Value} (hexact : e.2.Exact) (hreads : ReadsBack e.2)
    {depth : Nat} (hdepth : e.2.depth < depth) :
    TakesPart (fun fuel => entries fuel depth) entryChars e := by
  constructor
  · intro fuel done rest offset hfuel hrest
    obtain ⟨offset', hentry⟩ := entry_entryChars hexact hreads hdepth fuel offset hfuel hrest
    exact ⟨offset', entries_first.trans (read_bind hentry _)⟩
  · intro fuel done rest offset hfuel hrest
    obtain ⟨offset', hentry⟩ := entry_entryChars hexact hreads hdepth fuel (offset + 1) hfuel hrest
    exact ⟨offset', entries_comma.trans (read_bind hentry _)⟩

lemma readsBack_map {es : List (String × Value)} (hnames : (es.map (·.1)).Nodup)
    (hexact : ∀ e ∈ es, e.2.Exact) (hreads : ∀ e ∈ es, ReadsBack e.2) : ReadsBack (map es) := by
  intro fuel depth rest offset hfuel hdepth _
  obtain ⟨fuel, rfl⟩ := exists_succ hfuel (Exact.map hnames hexact).length_pos
  simp only [jsonChars, jsonEntries_eq, List.cons_append, List.append_assoc, List.nil_append,
    List.length_cons, List.length_append, List.length_nil] at hfuel ⊢
  rw [Value.depth] at hdepth
  have htakes : ∀ e ∈ es, TakesPart (fun fuel => entries fuel (depth - 1)) entryChars e :=
    fun e he => takesPart_entry (hexact e he) (hreads e he)
      ((depthEntries_le.1 le_rfl e he).trans_lt (by omega))
  obtain ⟨offset', hentries⟩ := loop_separated (.inr rfl) (fun fuel => entries_close fuel _) htakes
    fuel rest (offset + 1) (by omega)
  refine ⟨offset', ?_⟩
  rw [value, skipSpaces_cons rfl]
  show (if depth ≤ 1 then _ else _) = _
  rw [if_neg (by omega)]
  refine (read_bind hentries _).trans ?_
  show Except.ok (map (ofEntries es), _) = _
  rw [ofEntries_of_nodup hnames]

/-! ## All values -/

/-- **A value without doubles is read back**, whatever may follow it. -/
theorem Exact.readsBack (h : v.Exact) : ReadsBack v := by
  induction h with
  | nil => exact readsBack_nil
  | bool b => exact readsBack_bool b
  | int i => exact readsBack_int i
  | str s => exact readsBack_str s
  | list hitems ih => exact readsBack_list hitems ih
  | map hnames hentries ih => exact readsBack_map hnames hentries ih

/-- **A document that is a value without doubles is read as that value.** -/
theorem Exact.document_jsonChars (h : v.Exact) (hdepth : v.depth ≤ 127) :
    document (jsonChars v) = .ok v := by
  obtain ⟨offset', hvalue⟩ := h.readsBack (4 * (jsonChars v).length + 4) 128 [] 0 (by omega)
    (by omega) (by simp [Follows])
  rw [List.append_nil] at hvalue
  exact read_bind hvalue _

end Value

end BracketTemplate
