import Mathlib
import BracketTemplate.Proofs.Asking.Basic
import BracketTemplate.Script.Library

/-!
# What the libraries ask for

The functions on values compute, and the few of them that ask the host for something ask for the
time or write to the console.  So none of them has to do with the template that a script belongs to:
`Request.OfProcess` are the requests that have not.
-/

namespace BracketTemplate.Script

variable {allowed : Request → Prop}

/-- Requests that have to do with the process, and not with the template. -/
@[grind]
def Request.OfProcess : Request → Prop
  | .openFile .. | .readFile _ | .writeFile .. | .console .. | .now => True
  | _ => False

/-! ## Base functions -/

namespace Base

@[grind ←] lemma asks_raise (a : Arguments) (error : Val) (level : Int64) :
    (raise a error level).Asks allowed := by
  unfold raise
  grind

@[grind ←] lemma asks_readPieces (reader : Val) (fuel : Nat) (script : Bytes) :
    (readPieces reader fuel script).Asks allowed := by
  induction fuel generalizing script with
  | zero => exact asks_pure _
  | succ fuel ih =>
    unfold readPieces
    grind

@[grind ←] lemma asks_loadScript (script name mode : Bytes) (globals : Val) :
    (loadScript script name mode globals).Asks allowed := by
  unfold loadScript
  grind

@[grind ←] lemma asks_load (a : Arguments) : (load a).Asks allowed := by
  unfold load
  refine asks_bind (a.asks_optStr _ _) fun mode => ?_
  cases a.get? 4 with
  | some v =>
    refine asks_bind (asks_pure _) fun globals => ?_
    split <;> grind
  | none =>
    refine asks_bind (asks_read _) fun globals => ?_
    split <;> grind

@[grind ←] lemma asks_toNumber (a : Arguments) : (toNumber a).Asks allowed := by
  unfold toNumber
  grind

@[grind ←] lemma asks_getMetatable (a : Arguments) : (getMetatable a).Asks allowed := by
  unfold getMetatable
  grind

@[grind ←] lemma asks_setMetatable (a : Arguments) : (setMetatable a).Asks allowed := by
  unfold setMetatable
  grind

@[grind ←] lemma asks_next (a : Arguments) : (next a).Asks allowed := by
  unfold next
  grind

@[grind ←] lemma asks_pairs (a : Arguments) : (pairs a).Asks allowed := by
  unfold pairs
  grind

@[grind ←] lemma asks_select (a : Arguments) : (select a).Asks allowed := by
  unfold select
  grind

@[grind ←] lemma asks_collectGarbage (a : Arguments) : (collectGarbage a).Asks allowed := by
  unfold collectGarbage
  grind

@[grind ←] lemma asks_warn (a : Arguments) : (warn a).Asks Request.OfProcess := by
  unfold warn
  refine asks_bind (a.asks_str 1) fun _ => ?_
  refine asks_bind (asks_mapM (fun i => a.asks_str _) _) fun parts => ?_
  split
  · grind
  · refine asks_bind (asks_read _) fun warns => ?_
    split
    · exact asks_bind (asks_ask trivial) fun _ => asks_pure _
    · exact asks_pure _

lemma asks_run (f : BaseFunction) (a : Arguments) : (run f a).Asks Request.OfProcess := by
  unfold run
  cases f <;> grind

end Base

/-! ## Coroutines -/

namespace Coroutines

@[grind ←] lemma asks_coroutine (a : Arguments) : (coroutine a).Asks allowed := by
  unfold coroutine
  grind

@[grind ←] lemma asks_sure (c : Control) : (sure c).Asks allowed := by
  unfold sure
  grind

@[grind ←] lemma asks_create (a : Arguments) : (create a).Asks allowed := by
  unfold create
  grind

lemma asks_resumeWrapped (site : Site) (thread : Nat) (args : List Val) :
    (resumeWrapped site thread args).Asks allowed := by
  unfold resumeWrapped
  grind

@[grind ←] lemma asks_close (a : Arguments) : (close a).Asks allowed := by
  unfold close
  grind

lemma asks_run (f : CoroutineFunction) (a : Arguments) : (run f a).Asks allowed := by
  unfold run
  cases f <;> grind

end Coroutines

/-! ## Numbers -/

namespace Numbers

@[grind ←] lemma asks_giveFloat (x : Float) : (giveFloat x).Asks allowed := asks_pure _

@[grind ←] lemma asks_giveWhole (x : Float) : (giveWhole x).Asks allowed := asks_pure _

@[grind ←] lemma asks_onFloat (a : Arguments) (f : Float → Float) : (onFloat a f).Asks allowed := by
  unfold onFloat
  grind

@[grind ←] lemma asks_fmod (a : Arguments) : (fmod a).Asks allowed := by
  unfold fmod
  grind

@[grind ←] lemma asks_modf (a : Arguments) : (modf a).Asks allowed := by
  unfold modf
  grind

@[grind ←] lemma asks_log (a : Arguments) : (log a).Asks allowed := by
  unfold log
  grind

@[grind ←] lemma asks_extreme {before : Val → Val → Act Bool}
    (h : ∀ v w, (before v w).Asks allowed) (best : Val) (values : List Val) :
    (extreme before best values).Asks allowed := by
  induction values generalizing best with
  | nil => exact asks_pure _
  | cons v rest ih =>
    unfold extreme
    grind

@[grind ←] lemma asks_draw : draw.Asks allowed := asks_update _

@[grind ←] lemma asks_random (a : Arguments) : (random a).Asks allowed := by
  unfold random
  grind

@[grind ←] lemma asks_randomSeed (a : Arguments) : (randomSeed a).Asks Request.OfProcess := by
  unfold randomSeed
  grind

lemma asks_run (f : MathFunction) (a : Arguments) : (run f a).Asks Request.OfProcess := by
  unfold run
  cases f <;> grind

end Numbers

/-! ## Strings -/

namespace Format

@[grind ←] lemma asks_conversion (a : Arguments) (shown : Bytes) :
    (conversion a shown).Asks allowed := by
  unfold conversion
  grind

@[grind ←] lemma asks_convert (a : Arguments) (n : Nat) (shown : Bytes) :
    (convert a n shown).Asks allowed := by
  unfold convert
  grind

@[grind ←] lemma asks_run (a : Arguments) (fuel n : Nat) (done format : Bytes) :
    (run a fuel n done format).Asks allowed := by
  induction fuel generalizing n done format with
  | zero => exact asks_pure _
  | succ fuel ih =>
    unfold run
    grind

end Format

namespace Strings

@[grind ←] lemma asks_captureValue (site : Site) (text : Bytes) (c : Pattern.Capture) :
    (captureValue site text c).Asks allowed := by
  unfold captureValue
  grind

@[grind ←] lemma asks_captureValues (site : Site) (text : Bytes) (captures : List Pattern.Capture) :
    (captureValues site text captures).Asks allowed := by
  induction captures with
  | nil => exact asks_pure _
  | cons c rest ih =>
    unfold captureValues
    grind

@[grind ←] lemma asks_matchValues (site : Site) (text : Bytes) (start stop : Nat)
    (captures : List Pattern.Capture) :
    (matchValues site text start stop captures).Asks allowed := by
  unfold matchValues
  grind

@[grind ←] lemma asks_find (a : Arguments) (places : Bool) : (find a places).Asks allowed := by
  unfold find
  grind

@[grind ←] lemma asks_gmatch (a : Arguments) : (gmatch a).Asks allowed := by
  unfold gmatch
  grind

lemma asks_gmatchStep (site : Site) (id : Nat) (text pattern : Bytes) (position : Nat)
    (lastEnd : Option Nat) : (gmatchStep site id text pattern position lastEnd).Asks allowed := by
  unfold gmatchStep
  grind

@[grind ←] lemma asks_expand (site : Site) (text whole : Bytes) (captures : List Pattern.Capture)
    (replacement : Bytes) : (expand site text whole captures replacement).Asks allowed := by
  fun_induction expand site text whole captures replacement <;> grind

@[grind ←] lemma asks_replacement (a : Arguments) (text : Bytes) (start stop : Nat)
    (captures : List Pattern.Capture) : (replacement a text start stop captures).Asks allowed := by
  unfold replacement
  grind

@[grind ←] lemma asks_replaceFrom (a : Arguments) (text : Bytes) (pattern : List PatternItem)
    (anchored : Bool) (fuel limit count : Nat) (lastEnd : Option Nat) (p : Pattern.Place)
    (done : Bytes) :
    (replaceFrom a text pattern anchored fuel limit count lastEnd p done).Asks allowed := by
  induction fuel generalizing count lastEnd p done with
  | zero => exact asks_pure _
  | succ fuel ih =>
    unfold replaceFrom
    grind

@[grind ←] lemma asks_gsub (a : Arguments) : (gsub a).Asks allowed := by
  unfold gsub
  grind

@[grind ←] lemma asks_arithmetic (event : String) (a : Arguments) :
    (arithmetic event a).Asks allowed := by
  unfold arithmetic
  grind

lemma asks_run (f : StringFunction) (a : Arguments) : (run f a).Asks allowed := by
  unfold run
  cases f <;> grind

end Strings

/-! ## Tables -/

namespace Tables

@[grind ←] lemma asks_getAt (t : Val) (i : Int) : (getAt t i).Asks allowed :=
  Operation.asks_index _ _ _

@[grind ←] lemma asks_setAt (t : Val) (i : Int) (v : Val) : (setAt t i v).Asks allowed :=
  Operation.asks_setIndex _ _ _ _

@[grind ←] lemma asks_lengthOf (a : Arguments) (v : Val) : (lengthOf a v).Asks allowed := by
  unfold lengthOf
  grind

@[grind ←] lemma asks_sequence (a : Arguments) : (sequence a).Asks allowed := by
  unfold sequence
  grind

@[grind ←] lemma asks_copyUp (t destination : Val) (source target : Int) (n : Nat) :
    (copyUp t destination source target n).Asks allowed := by
  induction n generalizing source target with
  | zero => exact asks_pure _
  | succ n ih =>
    unfold copyUp
    grind

@[grind ←] lemma asks_copyDown (t destination : Val) (source target : Int) (n : Nat) :
    (copyDown t destination source target n).Asks allowed := by
  induction n with
  | zero => exact asks_pure _
  | succ n ih =>
    unfold copyDown
    grind

@[grind ←] lemma asks_valuesFrom (t : Val) (i : Int) (n : Nat) :
    (valuesFrom t i n).Asks allowed := by
  induction n generalizing i with
  | zero => exact asks_pure _
  | succ n ih =>
    unfold valuesFrom
    grind

@[grind ←] lemma asks_joinFrom (a : Arguments) (t : Val) (separator : Bytes) (i : Int) (n : Nat)
    (done : Bytes) : (joinFrom a t separator i n done).Asks allowed := by
  induction n generalizing i done with
  | zero => exact asks_pure _
  | succ n ih =>
    unfold joinFrom
    refine asks_bind (asks_getAt _ _) fun v => ?_
    split
    · exact ih _ _
    · exact fun h => asks_siteThrow _ _ h

@[grind ←] lemma asks_concat (a : Arguments) : (concat a).Asks allowed := by
  unfold concat
  grind

@[grind ←] lemma asks_insert (a : Arguments) : (insert a).Asks allowed := by
  unfold insert
  grind

@[grind ←] lemma asks_remove (a : Arguments) : (remove a).Asks allowed := by
  unfold remove
  grind

@[grind ←] lemma asks_move (a : Arguments) : (move a).Asks allowed := by
  unfold move
  refine asks_bind (a.asks_int 2) fun first => asks_bind (a.asks_int 3) fun last => ?_
  refine asks_bind (a.asks_int 4) fun target => asks_bind (a.asks_table 1) fun source => ?_
  refine asks_bind (a.asks_table _) fun destination => ?_
  grind

@[grind ←] lemma asks_unpack (a : Arguments) : (unpack a).Asks allowed := by
  unfold unpack
  grind

@[grind ←] lemma asks_before (fn x y : Val) : (before fn x y).Asks allowed := by
  unfold before
  grind

@[grind ←] lemma asks_failOrder {α : Type} (a : Arguments) : (failOrder a : Act α).Asks allowed :=
  asks_siteThrow _ _

@[grind ←] lemma asks_scanUp (a : Arguments) (t fn pivot : Val) (high fuel i : Nat) :
    (scanUp a t fn pivot high fuel i).Asks allowed := by
  induction fuel generalizing i with
  | zero => exact asks_pure _
  | succ fuel ih =>
    unfold scanUp
    grind

@[grind ←] lemma asks_scanDown (a : Arguments) (t fn pivot : Val) (i fuel j : Nat) :
    (scanDown a t fn pivot i fuel j).Asks allowed := by
  induction fuel generalizing j with
  | zero => exact asks_pure _
  | succ fuel ih =>
    unfold scanDown
    grind

@[grind ←] lemma asks_partition (a : Arguments) (t fn pivot : Val) (high fuel i j : Nat) :
    (partition a t fn pivot high fuel i j).Asks allowed := by
  induction fuel generalizing i j with
  | zero => exact asks_pure _
  | succ fuel ih =>
    unfold partition
    grind

@[grind ←] lemma asks_order (t fn : Val) (i j : Nat) : (order t fn i j).Asks allowed := by
  unfold order
  grind

@[grind ←] lemma asks_sortBetween (a : Arguments) (t fn : Val) (fuel low high : Nat) :
    (sortBetween a t fn fuel low high).Asks allowed := by
  induction fuel generalizing low high with
  | zero => exact asks_pure _
  | succ fuel ih =>
    unfold sortBetween
    dsimp only
    split
    · exact asks_pure _
    refine asks_bind (asks_order _ _ _ _) fun _ => ?_
    split
    · exact asks_pure _
    refine asks_bind (asks_getAt _ _) fun m => asks_bind (asks_getAt _ _) fun l => ?_
    refine asks_bind (asks_before _ _ _) fun isLess => ?_
    split
    · refine asks_bind (asks_setAt _ _ _) fun _ => asks_bind (asks_setAt _ _ _) fun _ => ?_
      grind
    · refine asks_bind (asks_getAt _ _) fun h => asks_bind (asks_before _ _ _) fun isLess => ?_
      split
      · refine asks_bind (asks_setAt _ _ _) fun _ => asks_bind (asks_setAt _ _ _) fun _ => ?_
        grind
      · grind

@[grind ←] lemma asks_sort (a : Arguments) : (sort a).Asks allowed := by
  unfold sort
  grind

lemma asks_run (f : TableFunction) (a : Arguments) : (run f a).Asks allowed := by
  unfold run
  cases f <;> grind

end Tables

/-! ## Text in UTF-8 -/

namespace Unicode

@[grind ←] lemma asks_codepoint (a : Arguments) : (codepoint a).Asks allowed := by
  unfold codepoint
  grind

@[grind ←] lemma asks_len (a : Arguments) : (len a).Asks allowed := by
  unfold len
  grind

@[grind ←] lemma asks_offset (a : Arguments) : (offset a).Asks allowed := by
  unfold offset
  grind

@[grind ←] lemma asks_codesStep (a : Arguments) (lax : Bool) : (codesStep a lax).Asks allowed := by
  unfold codesStep
  grind

lemma asks_run (f : Utf8Function) (a : Arguments) : (run f a).Asks allowed := by
  unfold run
  cases f <;> grind

end Unicode

end BracketTemplate.Script
