import BracketTemplate.Cache.Pages
import BracketTemplate.Script.Request

/-!
# The world around an evaluation

What evaluations share and change: the files, the time, the page cache, the number of templates made
so far, the state of registered functions, and what has been written to the console.
-/

namespace BracketTemplate

/-- What has been written to the console. -/
structure Console where
  output : Bytes := []
  /-- What is to follow when the process ends. -/
  late : Bytes := []
  error : Bytes := []
  deriving Inhabited, Repr

/-- The world around an evaluation; `σ` is the type of the state of registered functions. -/
structure World (σ : Type) where
  files : FileTree
  /-- The time in nanoseconds. -/
  now : Int
  /-- The number of templates made so far. -/
  made : Nat := 0
  cache : Option Cache := none
  /-- Whether somebody holds the cache, so that pages cannot be looked up. -/
  cacheHeld : Bool := false
  state : σ
  console : Console := {}

namespace World

variable {σ : Type}

/-- The occasion that the world is at the moment. -/
def occasion (w : World σ) : Occasion := ⟨w.files, w.now, w.made⟩

/-- The world with another template made. -/
def withTemplate (w : World σ) : World σ := { w with made := w.made + 1 }

/-- Looks a page up in a cache of the world. -/
def page (w : World σ) (c : Cache) (name : String) :
    Except TemplateError (Option Template) × World σ :=
  let (result, c) := c.get w.occasion name
  (result, { w with cache := some c, made := w.made + 1 })

/-- The world with other files, a moment later. -/
def withFiles (w : World σ) (files : FileTree) : World σ := { w with files, now := w.now + 1 }

/-- Changes the files, if that is possible. -/
def change (w : World σ) (result : Except FileFault FileTree) : Except FileFault Unit × World σ :=
  match result with
  | .ok files => (.ok (), w.withFiles files)
  | .error fault => (.error fault, w)

/-- Writes to the console. -/
def print (w : World σ) (channel : Script.Channel) (content : Bytes) : World σ :=
  let c := w.console
  { w with console := match channel with
    | .output => { c with output := c.output ++ content }
    | .outputAtEnd => { c with late := c.late ++ content }
    | .error => { c with error := c.error ++ content } }

end World

end BracketTemplate
