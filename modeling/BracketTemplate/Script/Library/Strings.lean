import BracketTemplate.Script.Library.Format
import BracketTemplate.Script.Library.Pattern

/-!
# Functions on strings

Places in a string count from `1`, and negative ones from its end; a place outside is taken for the
nearest one inside.
-/

namespace BracketTemplate.Script.Strings

/-! ## Places -/

/-- Where a part that starts at a place starts, at least `1`. -/
def startPlace (place : Int64) (size : Nat) : Nat :=
  let p := place.toInt
  if 0 < p then p.toNat
  else if p == 0 || p < -(Int.ofNat size) then 1
  else (Int.ofNat size + p + 1).toNat

/-- Where a part that ends at a place ends, at most the size. -/
def endPlace (place : Int64) (size : Nat) : Nat :=
  let p := place.toInt
  if Int.ofNat size < p then size
  else if 0 ≤ p then p.toNat
  else if p < -(Int.ofNat size) then 0
  else (Int.ofNat size + p + 1).toNat

/-- The part of a text from a place to another. -/
def part (text : Bytes) (first last : Nat) : Bytes :=
  if last < first then [] else (text.drop (first - 1)).take (last - first + 1)

/-! ## Captures -/

/-- The value of a capture. -/
def captureValue (site : Site) (text : Bytes) (c : Pattern.Capture) : Act Val :=
  match c.extent with
  | .unfinished => site.throw (utf8 "unfinished capture")
  | .position => pure (.ofNat (c.start + 1))
  | .length n => pure (.str ((text.drop c.start).take n))

/-- The values of captures. -/
def captureValues (site : Site) (text : Bytes) : List Pattern.Capture → Act (List Val)
  | [] => pure []
  | c :: rest => do
    let v ← captureValue site text c
    return v :: (← captureValues site text rest)

/-- The values of the captures of a match, the whole match when there are none. -/
def matchValues (site : Site) (text : Bytes) (start stop : Nat) (captures : List Pattern.Capture) :
    Act (List Val) :=
  match captures with
  | [] => pure [.str ((text.drop start).take (stop - start))]
  | _ => captureValues site text captures

/-! ## Finding -/

/-- The first place from `from` on where a text stands in another; `fuel` bounds the places. -/
def findText? (needle : Bytes) : Nat → Nat → Bytes → Option Nat
  | 0, _, _ => none
  | fuel + 1, here, rest =>
    if needle.isPrefixOf rest then some here
    else match rest with
      | [] => none
      | _ :: rest => findText? needle fuel (here + 1) rest

/-- The characters that have a meaning of their own in a pattern. -/
def isSpecial (b : UInt8) : Bool := (utf8 "^$*+?.([%-").contains b

/-- Looks for a match of a pattern, as its places or as its captures. -/
def find (a : Arguments) (places : Bool) : Act (List Val) := do
  let text ← a.str 1
  let pattern ← a.str 2
  let start := startPlace (← a.optInt 3 1) text.length - 1
  if text.length < start then return [.nil]
  if places && ((a.get 4).truthy || !pattern.any isSpecial) then
    match findText? pattern (text.length + 1) start (text.drop start) with
    | some at? => return [.ofNat (at? + 1), .ofNat (at? + pattern.length)]
    | none => return [.nil]
  else
    let (anchored, body) := Pattern.anchor pattern
    match Pattern.search text (Pattern.ofBytes body) anchored (text.length + 1)
        (Pattern.placeAt text start) with
    | .error wording => a.site.throw (utf8 wording)
    | .ok none => return [.nil]
    | .ok (some (first, after, captures)) =>
      if places then
        return .ofNat (first + 1) :: .ofNat after.position
          :: (← captureValues a.site text captures)
      else matchValues a.site text first after.position captures

/-! ## One match after another -/

/-- The first match from a place on that does not end where the last one did. -/
def nextMatch (text : Bytes) (pattern : List PatternItem) (lastEnd : Option Nat) :
    Nat → Pattern.Place → Except String (Option (Nat × Pattern.Place × List Pattern.Capture))
  | 0, _ => .ok none
  | fuel + 1, p =>
    match Pattern.run text pattern p [] with
    | .error e => .error e
    | .ok found =>
      match found with
      | some (after, captures) =>
        if lastEnd == some after.position then onwards fuel p
        else .ok (some (p.position, after, captures))
      | none => onwards fuel p
where
  onwards (fuel : Nat) (p : Pattern.Place) :=
    if p.rest.isEmpty then .ok none else nextMatch text pattern lastEnd fuel p.step

/-- Prepares to go through the matches of a pattern. -/
def gmatch (a : Arguments) : Act (List Val) := do
  let text ← a.str 1
  let pattern ← a.str 2
  let start := startPlace (← a.optInt 3 1) text.length - 1
  let start := min start (text.length + 1)
  let id ← Act.update fun h => h.newNative (.matches text pattern start none)
  return [.native id]

/-- The next match of a pattern. -/
def gmatchStep (site : Site) (id : Nat) (text pattern : Bytes) (position : Nat)
    (lastEnd : Option Nat) : Act (List Val) :=
  if text.length < position then pure [.nil]
  else
    match nextMatch text (Pattern.ofBytes pattern) lastEnd (text.length + 1)
        (Pattern.placeAt text position) with
    | .error wording => site.throw (utf8 wording)
    | .ok none => do
      Act.modify fun h => h.setNative id (.matches text pattern (text.length + 1) lastEnd)
      return [.nil]
    | .ok (some (first, after, captures)) => do
      Act.modify fun h =>
        h.setNative id (.matches text pattern after.position (some after.position))
      matchValues site text first after.position captures

/-! ## Replacing -/

/-- The text that a replacement text stands for at a match. -/
def expand (site : Site) (text whole : Bytes) (captures : List Pattern.Capture) :
    Bytes → Act Bytes
  | [] => pure []
  | 37 :: rest =>
    match rest with
    | 37 :: rest => do return 37 :: (← expand site text whole captures rest)
    | d :: rest => do
      if d == 48 then return whole ++ (← expand site text whole captures rest)
      else if Byte.isDigit d then
        let n := d.toNat - 49
        let piece ← (match captures[n]? with
          | some c => do
            let v ← captureValue site text c
            pure ((v.toText?).getD [])
          | none =>
            if n == 0 then pure whole
            else site.throw (utf8 s!"invalid capture index %{n + 1} in replacement string"))
        return piece ++ (← expand site text whole captures rest)
      else site.throw (utf8 "invalid use of '%' in replacement string")
    | [] => site.throw (utf8 "invalid use of '%' in replacement string")
  | b :: rest => do return b :: (← expand site text whole captures rest)

/-- What a match is replaced by. -/
def replacement (a : Arguments) (text : Bytes) (start : Nat) (stop : Nat)
    (captures : List Pattern.Capture) : Act Bytes := do
  let whole := (text.drop start).take (stop - start)
  let keep (v : Val) : Act Bytes :=
    match v with
    | .nil | .bool false => pure whole
    | v => match v.toText? with
      | some s => pure s
      | none => a.site.throw (utf8 s!"invalid replacement value (a {v.typeName})")
  match a.get 3 with
  | .table id => do
    let key := (← matchValues a.site text start stop captures).headD .nil
    keep (← Operation.index {} (.table id) key)
  | .str s => expand a.site text whole captures s
  | .int i => expand a.site text whole captures (Val.intText i)
  | .float x => expand a.site text whole captures (Val.floatText x)
  | fn => do
    let args ← matchValues a.site text start stop captures
    keep ((← Act.call fn args {}).headD .nil)

/-- Replaces matches from a place on, `limit` of them at most; `done` is the text so far,
backwards. -/
def replaceFrom (a : Arguments) (text : Bytes) (pattern : List PatternItem) (anchored : Bool) :
    Nat → Nat → Nat → Option Nat → Pattern.Place → Bytes → Act (Bytes × Nat)
  | 0, _, count, _, p, done => pure (done.reverse ++ p.rest, count)
  | fuel + 1, limit, count, lastEnd, p, done =>
    if limit ≤ count then pure (done.reverse ++ p.rest, count)
    else
      match Pattern.run text pattern p [] with
      | .error wording => a.site.throw (utf8 wording)
      | .ok found => do
        match found.filter fun (after, _) => lastEnd != some after.position with
        | some (after, captures) =>
          let piece ← replacement a text p.position after.position captures
          let done := piece.reverse ++ done
          if anchored then return (done.reverse ++ after.rest, count + 1)
          else
            replaceFrom a text pattern anchored fuel limit (count + 1) (some after.position) after
              done
        | none =>
          match p.rest with
          | [] => return (done.reverse, count)
          | b :: _ =>
            if anchored then return (done.reverse ++ p.rest, count)
            else replaceFrom a text pattern anchored fuel limit count lastEnd p.step (b :: done)

/-- Replaces matches of a pattern. -/
def gsub (a : Arguments) : Act (List Val) := do
  let text ← a.str 1
  let pattern ← a.str 2
  match a.get 3 with
  | .str _ | .int _ | .float _ | .table _ | .closure _ | .builtin _ | .native _ => pure ()
  | _ => a.failType 3 "string/function/table"
  let limit := (← a.optInt 4 (Int64.ofNat (text.length + 1))).toInt.toNat
  let (anchored, body) := Pattern.anchor pattern
  let (result, count) ← replaceFrom a text (Pattern.ofBytes body) anchored (2 * text.length + 2)
    limit 0 none (Pattern.placeAt text 0) []
  return [.str result, .ofNat count]

/-! ## Arithmetic -/

/-- The verb of the error of an arithmetic operation on texts. -/
def verb (event : String) : String := (event.drop 2).toString

/-- The operation for an event. -/
def operation? : String → Option BinaryOp
  | "__add" => some .add
  | "__sub" => some .sub
  | "__mul" => some .mul
  | "__mod" => some .mod
  | "__pow" => some .pow
  | "__div" => some .div
  | "__idiv" => some .idiv
  | _ => none

/-- Arithmetic on texts that are numerals. -/
def arithmetic (event : String) (a : Arguments) : Act (List Val) := do
  let x := a.get 1
  let y := a.get 2
  match x.toNumber?, y.toNumber? with
  | some m, some n =>
    match operation? event with
    | some op =>
      match arithmeticOn op m n with
      | .ok v => return [v]
      | .error wording => Site.throw {} wording
    | none => return [← Operation.negate a.site (.ofNumber m) none]
  | _, _ =>
    let fn ← Act.read fun h => h.metafield y event
    if y.isStr || fn.isNil then
      a.site.throw (utf8 s!"attempt to {verb event} a '{x.typeName}' with a '{y.typeName}'")
    else return [(← Act.call fn [x, y] {}).headD .nil]

/-! ## The functions -/

/-- The greatest size of a text. -/
def maxSize : Nat := twoTo 31 - 1

/-- So many copies of a text with another between them. -/
def repeated (text separator : Bytes) : Nat → Bytes
  | 0 => []
  | 1 => text
  | n + 1 => text ++ separator ++ repeated text separator n

/-- Runs a function on strings. -/
def run (f : StringFunction) (a : Arguments) : Act (List Val) :=
  match f with
  | .byte => do
    let text ← a.str 1
    let first ← a.optInt 2 1
    let start := startPlace first text.length
    let last ← a.optInt 3 (Int64.ofNat start)
    return (part text start (endPlace last text.length)).map fun b => .ofNat b.toNat
  | .char => do
    let bytes ← (List.range a.count).mapM fun i => do
      let c ← a.int (i + 1)
      if c < 0 || 255 < c then a.fail (i + 1) (utf8 "value out of range")
      else return UInt8.ofNat c.toInt.toNat
    giveStr bytes
  | .dump => do
    let _ ← a.function 1
    a.site.throw (utf8 "unable to dump given function")
  | .find => find a true
  | .format => do
    let format ← a.str 1
    giveStr (← Format.run a (format.length + 1) 2 [] format)
  | .gmatch => gmatch a
  | .gsub => gsub a
  | .len => do giveNat (← a.str 1).length
  | .lower => do giveStr ((← a.str 1).map Byte.toLower)
  | .match => find a false
  | .rep => do
    let text ← a.str 1
    let n ← a.int 2
    let separator ← a.optStr 3 []
    if n ≤ 0 then giveStr []
    else
      let count := n.toInt.toNat
      if maxSize < (text.length + separator.length) * count then
        a.site.throw (utf8 "resulting string too large")
      else giveStr (repeated text separator count)
  | .reverse => do giveStr (← a.str 1).reverse
  | .sub => do
    let text ← a.str 1
    let first ← a.int 2
    let last ← a.optInt 3 (-1)
    giveStr (part text (startPlace first text.length) (endPlace last text.length))
  | .upper => do giveStr ((← a.str 1).map Byte.toUpper)
  | .arithmetic event => arithmetic event a
  | .pack | .packsize | .unpack => a.site.throw (utf8 "not available")

/-- The functions under their names. -/
def names : List (String × StringFunction) :=
  [("byte", .byte), ("char", .char), ("dump", .dump), ("find", .find), ("format", .format),
    ("gmatch", .gmatch), ("gsub", .gsub), ("len", .len), ("lower", .lower), ("match", .match),
    ("pack", .pack), ("packsize", .packsize), ("rep", .rep), ("reverse", .reverse), ("sub", .sub),
    ("unpack", .unpack), ("upper", .upper)]

/-- The arithmetic of texts, by event. -/
def events : List String :=
  ["__add", "__sub", "__mul", "__mod", "__pow", "__div", "__idiv", "__unm"]

end BracketTemplate.Script.Strings
