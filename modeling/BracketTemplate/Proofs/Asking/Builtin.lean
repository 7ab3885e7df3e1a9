import Mathlib
import BracketTemplate.Proofs.Asking.Library

/-!
# What builtin functions ask for

Files and the time are matters of the process.  A function that reaches the template makes one kind
of request each: a form of output writes, in the way that it is the form of, and does nothing else;
what includes a page asks for that.  `Builtin.asks_run` says so of all builtin functions, and a
function with a state asks for nothing that has to do with the template.
-/

namespace BracketTemplate.Script

variable {allowed : Request → Prop}

/-! ## The time -/

namespace Time

@[grind ←] lemma asks_dateText (a : Arguments) (t : Int) (d : Date) (format : Bytes) :
    (dateText a t d format).Asks allowed := by
  fun_induction dateText a t d format <;> grind

@[grind ←] lemma asks_field (a : Arguments) (id : Nat) (name : String) (default : Option Int) :
    (field a id name default).Asks allowed := by
  unfold field
  grind

@[grind ←] lemma asks_now : now.Asks Request.OfProcess := by
  unfold now
  grind

@[grind ←] lemma asks_time (a : Arguments) : (time a).Asks Request.OfProcess := by
  unfold time
  split
  · grind
  · refine asks_bind (a.asks_table 1) fun id => ?_
    refine asks_bind (asks_field _ _ _ _) fun year => asks_bind (asks_field _ _ _ _) fun month => ?_
    refine asks_bind (asks_field _ _ _ _) fun day => asks_bind (asks_field _ _ _ _) fun hour => ?_
    grind

@[grind ←] lemma asks_date (a : Arguments) : (date a).Asks Request.OfProcess := by
  unfold date
  grind

lemma asks_run (f : OsFunction) (a : Arguments) : (run f a).Asks Request.OfProcess := by
  unfold run
  cases f <;> grind

end Time

/-! ## Files -/

namespace Files

@[grind ←] lemma asks_confine (root : Path) (name : String) : (confine root name).Asks allowed := by
  unfold confine
  grind

@[grind ←] lemma asks_openAs (path : Path) (mode : Mode) :
    (openAs path mode).Asks Request.OfProcess := by
  unfold openAs
  grind

@[grind ←] lemma asks_openOrFail (path : Path) (mode : Mode) :
    (openOrFail path mode).Asks Request.OfProcess := by
  unfold openOrFail
  grind

@[grind ←] lemma asks_open (a : Arguments) : («open» a).Asks Request.OfProcess := by
  unfold «open»
  refine asks_bind (a.asks_hostText 1) fun name => ?_
  split
  · refine asks_bind (asks_pure _) fun mode => ?_
    grind
  · refine asks_bind (a.asks_hostText 2) fun mode => ?_
    grind

@[grind ←] lemma asks_flush (id : Nat) : (flush id).Asks Request.OfProcess := by
  unfold flush
  refine asks_bind (asks_read _) fun f => ?_
  dsimp only
  split
  · exact asks_pure _
  split
  · exact asks_bind (asks_modify _) fun _ => asks_ask trivial
  · exact asks_bind (asks_modify _) fun _ => asks_pure _
  · exact asks_bind (asks_modify _) fun _ => asks_bind (asks_ask trivial) fun _ => asks_pure _
  · exact asks_bind (asks_modify _) fun _ => asks_bind (asks_ask trivial) fun _ => asks_pure _
  · exact asks_pure _

@[grind ←] lemma asks_writtenText (a : Arguments) (n : Nat) : (writtenText a n).Asks allowed := by
  unfold writtenText
  grind

@[grind ←] lemma asks_write (a : Arguments) (id first : Nat) :
    (write a id first).Asks Request.OfProcess := by
  unfold write
  grind

@[grind ←] lemma asks_content (id : Nat) : (content id).Asks Request.OfProcess := by
  unfold content
  refine asks_bind (asks_read _) fun f => ?_
  split
  · exact asks_pure _
  refine asks_bind (asks_flush id) fun _ => ?_
  cases f.stream
  case named path => exact asks_ask trivial
  all_goals exact asks_pure _

@[grind ←] lemma asks_readBy (a : Arguments) (n : Nat) (text : Bytes) :
    (readBy a n text).Asks allowed := by
  unfold readBy
  grind

@[grind ←] lemma asks_readAll (a : Arguments) (count n : Nat) (text : Bytes) :
    (readAll a count n text).Asks allowed := by
  induction count generalizing n text with
  | zero => exact asks_pure _
  | succ count ih =>
    unfold readAll
    grind

@[grind ←] lemma asks_read (a : Arguments) (id first : Nat) :
    (read a id first).Asks Request.OfProcess := by
  unfold read
  grind

@[grind ←] lemma asks_close (id : Nat) : (close id).Asks Request.OfProcess := by
  unfold close
  grind

@[grind ←] lemma asks_anyFile (a : Arguments) : (anyFile a).Asks allowed := by
  unfold anyFile
  grind

@[grind ←] lemma asks_openFile (a : Arguments) : (openFile a).Asks allowed := by
  unfold openFile
  grind

@[grind ←] lemma asks_currentInput (a : Arguments) : (currentInput a).Asks allowed := by
  unfold currentInput
  grind

@[grind ←] lemma asks_currentOutput (a : Arguments) : (currentOutput a).Asks allowed := by
  unfold currentOutput
  grind

@[grind ←] lemma asks_confinedName (a : Arguments) : (confinedName a).Asks allowed := by
  unfold confinedName
  grind

@[grind ←] lemma asks_redirect (a : Arguments) (mode : Mode) (current : Heap → Nat)
    (use : Heap → Nat → Heap) : (redirect a mode current use).Asks Request.OfProcess := by
  unfold redirect
  grind

@[grind ←] lemma asks_linesOf (a : Arguments) (id : Nat) (closes : Bool) :
    (linesOf a id closes).Asks allowed := by
  unfold linesOf
  grind

@[grind ←] lemma asks_lines (a : Arguments) : (lines a).Asks Request.OfProcess := by
  unfold lines
  grind

lemma asks_linesStep (site : Site) (id : Nat) (formats : List Val) (closes : Bool) :
    (linesStep site id formats closes).Asks Request.OfProcess := by
  unfold linesStep
  grind

@[grind ←] lemma asks_seek (a : Arguments) : (seek a).Asks Request.OfProcess := by
  unfold seek
  refine asks_bind (asks_openFile a) fun id => asks_bind (a.asks_option _ _ _) fun whence => ?_
  refine asks_bind (a.asks_optInt _ _) fun distance => asks_bind (asks_flush id) fun _ => ?_
  refine asks_bind (Script.asks_read _) fun f => ?_
  grind

@[grind ←] lemma asks_flushed (id : Nat) : (flushed id).Asks Request.OfProcess := by
  unfold flushed
  grind

lemma asks_run (f : IoFunction) (a : Arguments) : (run f a).Asks Request.OfProcess := by
  unfold run
  cases f <;> grind

lemma asks_flushFrom (n : Nat) : (flushFrom n).Asks Request.OfProcess := by
  induction n with
  | zero => exact asks_pure _
  | succ n ih =>
    unfold flushFrom
    grind

lemma asks_finish : finish.Asks Request.OfProcess := by
  unfold finish
  refine asks_bind (Script.asks_read _) fun size => asks_bind (asks_flushFrom size) fun _ => ?_
  refine asks_bind (Script.asks_read _) fun f => ?_
  exact asks_ite (asks_ask trivial) (asks_pure _)

end Files

/-! ## The template -/

namespace Host

@[grind ←] lemma asks_giveValue (v : Value) : (giveValue v).Asks allowed := asks_update _

@[grind ←] lemma asks_giveText? (text? : Option String) : (giveText? text?).Asks allowed := by
  unfold giveText?
  grind

@[grind ←] lemma asks_charOfCode (code : Int) : (charOfCode code).Asks allowed := by
  unfold charOfCode failCode
  grind

@[grind ←] lemma asks_charOf (v : Val) : (charOf v).Asks allowed := by
  unfold charOf failCode
  grind

@[grind ←] lemma asks_textsOf (values : List Val) : (textsOf values).Asks allowed := by
  induction values with
  | nil => exact asks_pure _
  | cons v rest ih =>
    unfold textsOf
    grind

@[grind ←] lemma asks_linesOf (values : List Val) : (linesOf values).Asks allowed := by
  induction values with
  | nil => exact asks_pure _
  | cons v rest ih =>
    unfold linesOf
    grind

@[grind ←] lemma asks_dumpsOf (form : Value → String) (values : List Val) :
    (dumpsOf form values).Asks allowed := by
  induction values with
  | nil => exact asks_pure _
  | cons v rest ih =>
    unfold dumpsOf
    grind

@[grind ←] lemma asks_fieldOf (v : Val) (name : String) : (fieldOf v name).Asks allowed := by
  unfold fieldOf
  grind

@[grind ←] lemma asks_outputText (form : OutputForm) (a : Arguments) :
    (outputText form a).Asks allowed := by
  unfold outputText
  grind

end Host

/-- The requests that a function which reaches the template makes. -/
def HostFunction.Makes : HostFunction → Request → Prop
  | text, r => ∃ index, r = .instruction .text index
  | rootdirAt, r => ∃ index, r = .instruction .rootdir index
  | workdirAt, r => ∃ index, r = .instruction .workdir index
  | printValue raw, r | output _ raw, r => ∃ text, r = .write raw text
  | «include», r => ∃ name, r = .includePage name
  | rootdir, r => r = .rootdir
  | workdir, r => r = .workdir
  | get, r => ∃ name, r = .binding name
  | set, r => ∃ name value, r = .bind name value
  | registered name, r => ∃ args, r = .invoke name args

/-- The requests that a builtin function makes. -/
def Builtin.Makes : Builtin → Request → Prop
  | host f => f.Makes
  | _ => Request.OfProcess

namespace Host

lemma asks_perform (kind : InstructionKind) (a : Arguments)
    (h : ∀ index, allowed (.instruction kind index)) : (perform kind a).Asks allowed := by
  refine asks_bind (a.asks_converted _ _) fun index =>
    asks_bind (asks_ask (h index)) fun known => ?_
  grind

lemma asks_output (form : OutputForm) (raw : Bool) (a : Arguments)
    (h : ∀ text, allowed (.write raw text)) : (output form raw a).Asks allowed := by
  refine asks_bind (asks_outputText form a) fun text => asks_bind (asks_ask (h text)) fun _ => ?_
  cases form <;> grind

lemma asks_bind (a : Arguments) (h : ∀ name value, allowed (.bind name value)) :
    (bind a).Asks allowed := by
  refine Script.asks_bind (a.asks_hostText 1) fun name => ?_
  refine Script.asks_bind (asks_export _) fun value => ?_
  refine Script.asks_bind (asks_ask (h name value)) fun bound => ?_
  grind

lemma asks_invoke (name : String) (a : Arguments) (h : ∀ args, allowed (.invoke name args)) :
    (invoke name a).Asks allowed := by
  refine Script.asks_bind (asks_exportAll _) fun args =>
    Script.asks_bind (asks_ask (h args)) fun v => ?_
  grind

/-- **A function that reaches the template makes its own kind of request**, and no other. -/
theorem asks_run (f : HostFunction) (a : Arguments) : (run f a).Asks f.Makes := by
  cases f with
  | text | rootdirAt | workdirAt => exact asks_perform _ a fun index => ⟨index, rfl⟩
  | printValue raw =>
    exact Script.asks_bind (asks_stringify _) fun text =>
      Script.asks_bind (asks_ask ⟨text, rfl⟩) fun _ => asks_pure _
  | output form raw => exact asks_output form raw a fun text => ⟨text, rfl⟩
  | «include» =>
    exact Script.asks_bind (a.asks_hostText 1) fun name =>
      Script.asks_bind (asks_ask ⟨name, rfl⟩) fun _ => asks_pure _
  | rootdir | workdir => exact Script.asks_bind (asks_ask rfl) fun dir => asks_giveText? dir
  | get =>
    exact Script.asks_bind (a.asks_hostText 1) fun name =>
      Script.asks_bind (asks_ask ⟨name, rfl⟩) fun v => asks_giveValue v
  | set => exact asks_bind a fun name value => ⟨name, value, rfl⟩
  | registered name => exact asks_invoke name a fun args => ⟨args, rfl⟩

end Host

/-! ## All functions -/

/-- **What a builtin function asks for** is settled by which function it is. -/
theorem Builtin.asks_run (f : Builtin) (site : Site) (args : List Val) :
    (f.run site args).Asks f.Makes := by
  cases f with
  | base f => exact Base.asks_run f _
  | string f => exact Strings.asks_run f _
  | table f => exact Tables.asks_run f _
  | math f => exact Numbers.asks_run f _
  | utf8 f => exact Unicode.asks_run f _
  | os f => exact Time.asks_run f _
  | io f => exact Files.asks_run f _
  | coroutine f => exact Coroutines.asks_run f _
  | host f => exact Host.asks_run f _

/-- A builtin function with a state has nothing to do with the template. -/
lemma Native.asks_run (id : Nat) (n : Native) (site : Site) (args : List Val) :
    (n.run id site args).Asks Request.OfProcess := by
  cases n with
  | «matches» text pattern position lastEnd => exact Strings.asks_gmatchStep _ _ _ _ _ _
  | lines file formats closes => exact Files.asks_linesStep _ _ _ _
  | wrapped thread => exact Coroutines.asks_resumeWrapped _ _ _

end BracketTemplate.Script
