import Mathlib
import BracketTemplate.Environment.Basic
import BracketTemplate.Proofs.Environment.Name
import BracketTemplate.Proofs.Value.Equality

/-!
# Bindings in the order of their first writes

Bindings are written one at a time or in batches, and writes to what is no name are refused.  A
batch stops at the first entry that is refused and keeps what it has written before (`update_eq`),
so any write comes down to some entries that it makes (`Write.perform_eq`), and any number of writes
to their log (`run_eq`).  Entries that are written one after the other leave one binding for each
name, in the order of the first writes, with the value of the last (`Records`).
-/

namespace BracketTemplate

open Script

variable {σ : Type}

namespace Environment

/-! ## Single writes -/

/-- Entries are written to the bindings one after the other. -/
def withEntries (env : Environment σ) (entries : List (String × Value)) : Environment σ :=
  { env with
    bindings := entries.foldl (fun written (k, v) => Value.insert k v written) env.bindings }

lemma withEntries_append (env : Environment σ) (entries more : List (String × Value)) :
    env.withEntries (entries ++ more) = (env.withEntries entries).withEntries more := by
  rw [withEntries, List.foldl_append]
  rfl

variable {spelling : String}

lemma set_eq_ok (h : IsIdentifier (bindingName spelling)) (env : Environment σ) (value : Value) :
    env.set spelling value = .ok (env.withEntries [(bindingName spelling, value)]) := by
  have hcheck : checkBindingName (bindingName spelling) = .ok () := if_pos (isBindingName_iff.2 h)
  simp only [set, hcheck, bind, Except.bind]
  rfl

lemma set_eq_error (h : ¬ IsIdentifier (bindingName spelling)) (env : Environment σ)
    (value : Value) :
    env.set spelling value = .error (.binding (bindingName spelling)) := by
  have hcheck : checkBindingName (bindingName spelling) =
      .error (.binding (bindingName spelling)) :=
    if_neg fun hname => h (isBindingName_iff.1 hname)
  simp [set, hcheck, bind, Except.bind]

/-! ## Batches -/

/-- The entries of a batch before the first that is refused. -/
def accepted (batch : List (String × Value)) : List (String × Value) :=
  batch.takeWhile fun entry => IsIdentifier (bindingName entry.1)

/-- Sets entries one by one. -/
def setEach (env : Environment σ) (entries : List (String × Value)) :
    Except TemplateError (Environment σ) :=
  entries.foldlM (fun env entry => env.set entry.1 entry.2) env

/-- Entries with the names that they are written to. -/
def named (entries : List (String × Value)) : List (String × Value) :=
  entries.map fun entry => (bindingName entry.1, entry.2)

/-- **A batch is its accepted entries, set one by one**, and the first other one is its error. -/
theorem update_eq (env : Environment σ) (batch : List (String × Value)) :
    env.setEach (accepted batch) = .ok (env.update batch).2 ∧
      (env.update batch).1 =
        match batch.find? fun entry => ¬ IsIdentifier (bindingName entry.1) with
        | some entry => .error (.binding (bindingName entry.1))
        | none => .ok () := by
  induction batch generalizing env with
  | nil => exact ⟨rfl, rfl⟩
  | cons entry batch ih =>
    obtain ⟨spelling, value⟩ := entry
    by_cases h : IsIdentifier (bindingName spelling)
    · have hset := set_eq_ok h env value
      rw [accepted, List.takeWhile_cons_of_pos (by simpa using h),
        List.find?_cons_of_neg (by simpa using h), setEach, List.foldlM_cons, update, hset]
      exact ih _
    · have hset := set_eq_error h env value
      rw [accepted, List.takeWhile_cons_of_neg (by simpa using h),
        List.find?_cons_of_pos (by simpa using h), update, hset]
      exact ⟨rfl, rfl⟩

/-- Entries that are accepted are written one after the other, and nothing but the bindings
changes. -/
lemma setEach_eq {entries : List (String × Value)}
    (h : ∀ entry ∈ entries, IsIdentifier (bindingName entry.1)) (env : Environment σ) :
    env.setEach entries = .ok (env.withEntries (named entries)) := by
  induction entries generalizing env with
  | nil => rfl
  | cons entry entries ih =>
    rw [List.forall_mem_cons] at h
    rw [setEach, List.foldlM_cons, set_eq_ok h.1]
    exact ih h.2 _

lemma isIdentifier_of_mem_accepted {batch : List (String × Value)} {entry : String × Value}
    (h : entry ∈ accepted batch) : IsIdentifier (bindingName entry.1) := by
  simpa using List.mem_takeWhile_imp h

/-! ## Runs -/

/-- A write of bindings. -/
inductive Write where
  | set (spelling : String) (value : Value)
  | update (batch : List (String × Value))

namespace Write

/-- What a write makes of an environment. -/
def perform (env : Environment σ) : Write → Environment σ
  | set spelling value =>
    match env.set spelling value with
    | .ok after => after
    | .error _ => env
  | update batch => (env.update batch).2

/-- The entries that a write makes, with the names that they are written to. -/
def made : Write → List (String × Value)
  | set spelling value => named (accepted [(spelling, value)])
  | update batch => named (accepted batch)

/-- A single write is a batch of one. -/
lemma perform_set (env : Environment σ) (spelling : String) (value : Value) :
    perform env (.set spelling value) = perform env (.update [(spelling, value)]) := by
  rw [perform, perform, Environment.update]
  cases env.set spelling value <;> rfl

/-- **A write makes its entries**, and nothing but the bindings changes. -/
theorem perform_eq (env : Environment σ) (write : Write) :
    perform env write = env.withEntries write.made := by
  have hbatch : ∀ batch,
      perform env (.update batch) = env.withEntries (named (accepted batch)) := by
    intro batch
    have hset := (update_eq env batch).1
    rw [setEach_eq fun entry => isIdentifier_of_mem_accepted] at hset
    exact (Except.ok.inj hset).symm
  cases write with
  | set spelling value => rw [perform_set, hbatch, made]
  | update batch => exact hbatch batch

lemma isIdentifier_of_mem_made {write : Write} {entry : String × Value} (h : entry ∈ write.made) :
    IsIdentifier entry.1 := by
  have hnamed : ∀ {batch : List (String × Value)}, entry ∈ named (accepted batch) →
      IsIdentifier entry.1 := by
    intro batch hmem
    obtain ⟨entry, hentry, rfl⟩ := List.mem_map.1 hmem
    exact isIdentifier_of_mem_accepted hentry
  cases write <;> exact hnamed h

end Write

/-- What writes make of an environment, one after the other. -/
def run (env : Environment σ) (writes : List Write) : Environment σ :=
  writes.foldl Write.perform env

/-- The entries that writes make. -/
def log (writes : List Write) : List (String × Value) := writes.flatMap Write.made

lemma run_eq (env : Environment σ) (writes : List Write) :
    env.run writes = env.withEntries (log writes) := by
  induction writes generalizing env with
  | nil => rfl
  | cons write writes ih =>
    rw [log, List.flatMap_cons, withEntries_append, ← Write.perform_eq]
    exact ih _

/-- The value that was written last under a name. -/
def lastWrite (name : String) (entries : List (String × Value)) : Option Value :=
  (entries.filter (·.1 = name)).getLast?.map (·.2)

/-- An environment has the bindings that entries make which are written one after the other: one for
each name, all of them names of the language, in the order of the first writes and with the values
of the last ones, under both spellings. -/
structure Records (env : Environment σ) (entries : List (String × Value)) : Prop where
  identifiers : ∀ name ∈ env.bindings.map (·.1), IsIdentifier name ∧
    ∀ x m, Byte.isNamePart x = false → Reads (utf8 name ++ x :: m) (.name (utf8 name)) (x :: m)
  order : env.bindings.map (·.1) = (entries.map (·.1)).eraseDups
  values : ∀ entry ∈ env.bindings, lastWrite entry.1 entries = some entry.2
  get_at : ∀ name, env.get? ("@" ++ name) = lastWrite name entries
  get_plain : ∀ name, name.toList.head? ≠ some '@' → env.get? name = lastWrite name entries

lemma records_run_new (escape : String → String) (writes : List Write) :
    Records ((new escape : Environment σ).run writes) (log writes) := by
  have hbindings : ((new escape : Environment σ).run writes).bindings =
      Value.ofEntries (log writes) := by
    rw [run_eq]
    rfl
  have horder : ((new escape : Environment σ).run writes).bindings.map (·.1) =
      ((log writes).map (·.1)).eraseDups := by rw [hbindings, Value.keys_ofEntries]
  have hget : ∀ spelling, ((new escape : Environment σ).run writes).get? spelling =
      lastWrite (bindingName spelling) (log writes) := by
    intro spelling
    rw [get?, hbindings, Value.lookup_ofEntries, lastWrite]
  refine ⟨fun name hname => ?_, horder, fun entry hentry => ?_, fun name => ?_, fun name hne => ?_⟩
  · rw [horder, List.mem_eraseDups] at hname
    obtain ⟨entry, hentry, rfl⟩ := List.mem_map.1 hname
    obtain ⟨write, -, hmade⟩ := List.mem_flatMap.1 hentry
    have hidentifier := Write.isIdentifier_of_mem_made hmade
    exact ⟨hidentifier, fun x m hx => hidentifier.reads hx m⟩
  · rw [hbindings] at hentry
    rw [← Value.lookup_of_mem (Value.nodup_ofEntries _) hentry, Value.lookup_ofEntries, lastWrite]
  · rw [hget, bindingName_at]
  · rw [hget, bindingName_of_ne hne]

/-- Writing a name that is bound keeps its position, and a new one goes to the end. -/
lemma set_spec (h : IsIdentifier (bindingName spelling)) (env : Environment σ) (value : Value) :
    ∃ after, env.set spelling value = .ok after ∧ after = { env with bindings := after.bindings } ∧
      after.get? spelling = some value ∧
      after.bindings.map (·.1) =
        if bindingName spelling ∈ env.bindings.map (·.1) then env.bindings.map (·.1)
        else env.bindings.map (·.1) ++ [bindingName spelling] := by
  refine ⟨_, set_eq_ok h env value, rfl, ?_, Value.keys_insert _ _ _⟩
  exact (Value.lookup_insert _ _ _ _).trans (if_pos rfl)

/-- An update is an error when one of its entries is refused. -/
lemma update_eq_error_iff (env : Environment σ) (batch : List (String × Value)) :
    (∃ e, (env.update batch).1 = .error e) ↔
      ∃ entry ∈ batch, ¬ IsIdentifier (bindingName entry.1) := by
  rw [(update_eq env batch).2]
  split
  · next entry hfind =>
    have hrefused := List.find?_some hfind
    exact ⟨fun _ => ⟨entry, List.mem_of_find?_eq_some hfind, by simpa using hrefused⟩,
      fun _ => ⟨_, rfl⟩⟩
  · next hfind =>
    refine ⟨fun ⟨e, he⟩ => (by cases he), fun ⟨entry, hmem, hrefused⟩ => ?_⟩
    exact absurd (decide_eq_true hrefused) (List.find?_eq_none.1 hfind entry hmem)

/-- **Bindings form an insertion-ordered map of valid identifiers.**  Whatever is set and updated in
a new environment, its bindings are those that the accepted writes make.  In any environment a
single write is accepted when it is to a name of the language: the name has the value then, and
keeps its position if it is bound already; what is refused changes nothing.  A batch has the effect
of setting its entries before the first that is refused, one by one, and is an error if and only if
there is one. -/
theorem bindings_run :
    (∀ escape writes, Records ((new escape : Environment σ).run writes) (log writes)) ∧
    ∀ env : Environment σ,
      (∀ spelling value, IsIdentifier (bindingName spelling) →
        ∃ after, env.set spelling value = .ok after ∧
          after = { env with bindings := after.bindings } ∧
          after.get? spelling = some value ∧
          after.bindings.map (·.1) =
            if bindingName spelling ∈ env.bindings.map (·.1) then env.bindings.map (·.1)
            else env.bindings.map (·.1) ++ [bindingName spelling]) ∧
      (∀ spelling value, ¬ IsIdentifier (bindingName spelling) →
        env.set spelling value = .error (.binding (bindingName spelling)) ∧
          ∀ rest, env.update ((spelling, value) :: rest) =
            (.error (.binding (bindingName spelling)), env)) ∧
      ∀ batch, env.setEach (accepted batch) = .ok (env.update batch).2 ∧
        ((∃ e, (env.update batch).1 = .error e) ↔
          ∃ entry ∈ batch, ¬ IsIdentifier (bindingName entry.1)) := by
  refine ⟨records_run_new, fun env => ⟨fun spelling value h => set_spec h env value,
    fun spelling value h => ?_,
    fun batch => ⟨(update_eq env batch).1, update_eq_error_iff env batch⟩⟩⟩
  have hset := set_eq_error h env value
  refine ⟨hset, fun rest => ?_⟩
  rw [update, hset]

/-- A name that is written in both spellings, a batch that has a keyword in it, and a name that
starts with two at signs. -/
def spellings : List Write :=
  [.set "a" (.int 1), .update [("@b", .int 2), ("end", .int 3), ("c", .int 4)], .set "@@a" (.int 5),
    .set "@a" (.int 6)]

/-- The spellings are one name, the batch stops at the keyword, and of two at signs one is left. -/
theorem bindings_run_spellings :
    log spellings = [("a", .int 1), ("b", .int 2), ("a", .int 6)] ∧
      ((new id : Environment Unit).run spellings).bindings.map (·.1) = ["a", "b"] ∧
      ((new id : Environment Unit).run spellings).get? "a" = some (.int 6) ∧
      ((new id : Environment Unit).run spellings).get? "@a" = some (.int 6) ∧
      (new id : Environment Unit).set "@@a" (.int 5) = .error (.binding "@a") := by
  have hlog : log spellings = [("a", .int 1), ("b", .int 2), ("a", .int 6)] := rfl
  obtain ⟨hrun, henv⟩ := bindings_run (σ := Unit)
  obtain ⟨-, horder, -, hat, hplain⟩ := hrun id spellings
  rw [hlog] at horder hat hplain
  have hrefused : ¬ IsIdentifier (bindingName "@@a") := by decide +kernel
  exact ⟨hlog, horder, hplain "a" (by decide +kernel), hat "a", ((henv _).2.1 _ _ hrefused).1⟩

end Environment

end BracketTemplate
