import Mathlib
import BracketTemplate.Proofs.Evaluation.Printing

/-!
# Acts that come to an end

An act that calls functions is done or has failed only after the machine has run these.  It settles
when the machine comes to that by itself, whatever is to go on then (`Machine.Settles`).

In a heap whose tables have no metatables, and in which `tostring` is the function from the start
(`Heap.Stock`), the text of every value settles, and the heap stays as it is
(`Machine.settles_stringify`).  Only the text of a file takes more than one call, since files have a
metatable.
-/

namespace BracketTemplate.Script

variable {α β γ : Type}

lemma Outcome.bind_assoc (o : Outcome α) (f : α → Heap → Outcome β) (g : β → Heap → Outcome γ) :
    (o.bind f).bind g = o.bind fun a h => (f a h).bind g := by
  induction o with
  | done | fail => rfl
  | call fn args site heap next ih =>
    exact congrArg (Outcome.call fn args site heap) (funext₂ ih)
  | enter code heap next ih => exact congrArg (Outcome.enter code heap) (funext₂ ih)
  | guard fn args handler heap next ih =>
    exact congrArg (Outcome.guard fn args handler heap) (funext₂ ih)
  | control c heap next ih => exact congrArg (Outcome.control c heap) (funext₂ ih)
  | ask request heap next ih => exact congrArg (Outcome.ask request heap) (funext₂ ih)

namespace Machine

variable {m : Machine} {h left : Heap}

/-! ## Settling -/

/-- One state comes right after another, and the host is not asked. -/
def Precedes (m m' : Machine) : Prop := m.step = .next m'

/-- The machine comes from one outcome to another, in finitely many steps and whatever goes on
afterwards. -/
def Settles (m : Machine) (o r : Outcome α) : Prop :=
  ∀ next : α → Heap → Outcome Signal,
    Relation.ReflTransGen Precedes (m.goOn (o.bind next)) (m.goOn (r.bind next))

lemma Settles.refl (m : Machine) (o : Outcome α) : m.Settles o o :=
  fun _ => .refl

/-- What goes on after an act that is done settles as it does by itself. -/
lemma Settles.bind {o : Outcome α} {a : α} {f : α → Heap → Outcome β} {r : Outcome β}
    (ho : m.Settles o (.done a left)) (hf : m.Settles (f a left) r) : m.Settles (o.bind f) r := by
  intro next
  rw [Outcome.bind_assoc]
  exact (ho _).trans (hf next)

/-- Nothing goes on after an act that fails. -/
lemma Settles.bind_fail {o : Outcome α} {e : Val} (f : α → Heap → Outcome β)
    (ho : m.Settles o (.fail e left)) : m.Settles (o.bind f) (.fail e left) := by
  intro next
  rw [Outcome.bind_assoc]
  exact ho _

/-- A builtin function that settles above its frame is called under guard. -/
lemma settles_guard (hroom : m.HasRoom) {f : Builtin} {args values : List Val}
    (hrun : ∀ frame, (m.push frame).Settles (f.run {} args h) (.done values left))
    (next : Except Val (List Val) → Heap → Outcome α) :
    m.Settles (.guard (.builtin f) args none h next) (next (.ok values) left) := by
  intro rest
  let frame : Frame := .guard none fun result heap => (next result heap).bind rest
  have hcall : Precedes (m.goOn ((Outcome.guard (.builtin f) args none h next).bind rest))
      ((m.push frame).goOn ((f.run {} args h).bind fun values h => .done (.return values) h)) :=
    congrArg Step.next (hroom.call_pushes frame (.builtin f) args {} h)
  have hpop : Precedes ((m.push frame).goOn (.done (.return values) left))
      (m.goOn ((next (.ok values) left).bind rest)) := by
    have hleave : Step.next (((m.push frame).pop frame m.frames).goOn
        ((next (.ok values) left).bind rest)) =
          .next (m.goOn ((next (.ok values) left).bind rest)) := by rw [pop_push]
    exact hleave
  exact .head hcall ((hrun frame _).tail hpop)

/-- A builtin function that is done at once is called. -/
lemma settles_call (hroom : m.HasRoom) {f : Builtin} {args values : List Val} {site : Site}
    (hrun : f.run site args h = .done values left) (next : List Val → Heap → Outcome α) :
    m.Settles (.call (.builtin f) args site h next) (next values left) := by
  intro rest
  let frame : Frame := .call site fun values heap => (next values heap).bind rest
  have hcall : Precedes (m.goOn ((Outcome.call (.builtin f) args site h next).bind rest))
      ((m.push frame).goOn (.done (.return values) left)) := by
    have hbegin : begin (.builtin f) args site h = .done (.return values) left := by
      show (f.run site args h).bind _ = _
      rw [hrun]
      rfl
    rw [← hbegin]
    exact congrArg Step.next (hroom.call_pushes frame (.builtin f) args site h)
  have hpop : Precedes ((m.push frame).goOn (.done (.return values) left))
      (m.goOn ((next values left).bind rest)) := by
    have hleave : Step.next
        (((m.push frame).pop frame m.frames).goOn ((next values left).bind rest)) =
        .next (m.goOn ((next values left).bind rest)) := by rw [pop_push]
    exact hleave
  exact .head hcall (.single hpop)

end Machine

/-! ## Heaps without metatables -/

/-- No table has a metatable, and the texts of values are what they are from the start. -/
structure Heap.Stock (h : Heap) : Prop where
  metatable : ∀ id, (h.table id).metatable = none
  tostring : h.globalVar "tostring" = .builtin (.base .tostring)
  /-- Files show themselves by the function of their library. -/
  fileText : (h.table h.fileMethods).getStr "__tostring" = .builtin (.io .fileText)

/-- How a file shows itself. -/
def Heap.fileBytes (h : Heap) (id : Nat) : Bytes :=
  if (h.file id).isOpen then utf8 "file (" ++ Operation.addressText id ++ [41]
  else utf8 "file (closed)"

/-- What `tostring` makes of a value in such a heap. -/
def Heap.shown (h : Heap) : Val → Bytes
  | .file id => h.fileBytes id
  | v => Operation.plainText h v

/-- The text of a value in such a heap. -/
def Heap.textOf (h : Heap) : Val → String
  | .nil => ""
  | v => (h.shown v).text

variable {h : Heap}

/-- Only texts and files have metatables. -/
lemma Heap.Stock.metafield (hstock : h.Stock) {v : Val} (hstr : v.isStr = false)
    (hfile : ∀ id, v ≠ .file id) (event : String) : h.metafield v event = .nil := by
  have hnone : h.metatable? v = none := by
    cases v with
    | table id => exact hstock.metatable id
    | str => cases hstr
    | file id => exact absurd rfl (hfile id)
    | nil | bool | int | float | closure | builtin | native | thread | failure => rfl
  rw [Heap.metafield, hnone]

/-- Bytes that are the text of some characters. -/
def Bytes.IsText (bytes : Bytes) : Prop := ∃ chars, bytes = Utf8.encode chars

lemma Bytes.IsText.append {bytes bytes' : Bytes} (h : Bytes.IsText bytes)
    (h' : Bytes.IsText bytes') : Bytes.IsText (bytes ++ bytes') := by
  obtain ⟨chars, rfl⟩ := h
  obtain ⟨chars', rfl⟩ := h'
  exact ⟨chars ++ chars', (Utf8.encode_append _ _).symm⟩

lemma Bytes.isText_utf8 (s : String) : Bytes.IsText (utf8 s) := ⟨s.toList, rfl⟩

lemma isText_addressText (n : Nat) : Bytes.IsText (Operation.addressText n) :=
  (Bytes.isText_utf8 "0x").append ⟨_, rfl⟩

/-- What shows a value that is no text is always well-formed. -/
lemma Heap.Stock.isText_shown (hstock : h.Stock) {v : Val} (hstr : v.isStr = false) :
    Bytes.IsText (h.shown v) := by
  have hnamed : ∀ (v : Val) n, v.isStr = false → (∀ id, v ≠ .file id) →
      Bytes.IsText (h.typeText v ++ utf8 ": " ++ Operation.addressText n) := by
    intro v n hstr hfile
    refine (Bytes.IsText.append ?_ (Bytes.isText_utf8 ": ")).append (isText_addressText n)
    have htype : h.typeText v = utf8 v.typeName := by
      cases v <;> simp only [Heap.typeText, hstock.metafield hstr hfile]
    rw [htype]
    exact Bytes.isText_utf8 _
  cases v with
  | str => cases hstr
  | nil => exact Bytes.isText_utf8 "nil"
  | bool b => exact Literal.exists_encode (l := .bool b) (List.cons_ne_nil _ _)
  | int i => exact Literal.exists_encode (l := .number (.int i)) (List.cons_ne_nil _ _)
  | float x => exact Literal.exists_encode (l := .number (.float x)) (List.cons_ne_nil _ _)
  | file id =>
    show Bytes.IsText (h.fileBytes id)
    unfold Heap.fileBytes
    split
    · exact ((Bytes.isText_utf8 "file (").append (isText_addressText id)).append ⟨[')'], rfl⟩
    · exact Bytes.isText_utf8 _
  | failure id => exact Bytes.isText_utf8 _
  | table id | closure id | builtin f | native id | thread id => exact hnamed _ _ rfl nofun

namespace Machine

variable {m : Machine}

/-- What shows a value settles above a machine that has room for a call. -/
lemma settles_toText (hstock : h.Stock) (hroom : m.HasRoom) (site : Site) {v : Val}
    (hstr : v.isStr = false) : m.Settles (Operation.toText site v h) (.done (h.shown v) h) := by
  by_cases hfile : ∃ id, v = .file id
  · obtain ⟨id, rfl⟩ := hfile
    have hmeta : Act.read (fun h => h.metafield (.file id) "__tostring") h =
        .done (.builtin (.io .fileText)) h := congrArg (Outcome.done · h) hstock.fileText
    have hrun : (Builtin.io .fileText).run {} [.file id] h = .done [.str (h.fileBytes id)] h := by
      show Outcome.done (if (h.file id).isOpen = true then _ else _) h = _
      unfold Heap.fileBytes
      split <;> rfl
    rw [Operation.toText, bind_of_done hmeta]
    exact (settles_call hroom hrun fun values h => .done values h).bind (.refl m _)
  · have hmeta : Act.read (fun h => h.metafield v "__tostring") h = .done .nil h :=
      congrArg (Outcome.done · h) (hstock.metafield hstr (not_exists.1 hfile) "__tostring")
    have hshown : h.shown v = Operation.plainText h v := by
      cases v with
      | file id => exact absurd ⟨id, rfl⟩ hfile
      | _ => rfl
    rw [Operation.toText, bind_of_done hmeta, hshown]
    exact .refl m _

/-- **The text of a value settles**, above a machine that has room for two calls. -/
theorem settles_stringify (hstock : h.Stock) (hroom : m.HasRoom)
    (hroom' : ∀ frame, (m.push frame).HasRoom) (v : Val) :
    m.Settles (stringify v h) (.done (h.textOf v) h) := by
  have hfield : globalField "tostring" h = .done (.builtin (.base .tostring)) h :=
    Operation.index_of_not_nil hstock.tostring rfl
  have hrun : v.isStr = false → ∀ frame, (m.push frame).Settles
      ((Builtin.base .tostring).run {} [v] h) (.done [.str (h.shown v)] h) := fun hstr frame =>
    (settles_toText hstock (hroom' frame) _ hstr).bind (.refl _ _)
  have hresult : v.isStr = false → hostResult [.str (h.shown v)] h = .done (h.shown v).text h := by
    intro hstr
    obtain ⟨chars, hchars⟩ := hstock.isText_shown hstr
    have htext : (Val.str (h.shown v)).hostText = .ok (h.shown v).text := by
      rw [Val.hostText, Val.toText?, Bytes.text, hchars, Utf8.decodeLossy_encode]
      simp only [Utf8.decode?_encode]
    unfold hostResult
    rw [List.headD_cons, htext]
    rfl
  have hother : v.isStr = false → stringify v h =
      (globalField "tostring" >>= fun fn => callFromHost fn [v] >>= hostResult) h →
        h.textOf v = (h.shown v).text → m.Settles (stringify v h) (.done (h.textOf v) h) := by
    intro hstr hstringify htext
    rw [hstringify, bind_of_done hfield, htext, ← hresult hstr]
    exact settles_guard hroom (hrun hstr) _
  cases v with
  | nil => exact .refl m _
  | str s => exact .refl m _
  | _ => exact hother rfl rfl rfl

end Machine

end BracketTemplate.Script
