import BracketTemplate.Cache.Policy
import BracketTemplate.Evaluation.Template

/-!
# The page cache

A cache holds the templates of pages by name. A page is the file of that name below the root
directory of the cache. It is compiled at its first use; at later uses the policy decides whether
the template that is there still does, and the file is compiled again when it does not.

What a look-up finds depends on the occasion: the files as they are, the time, and a number that no
template has as its identity yet. A look-up that fails leaves all templates as they are.
-/

namespace BracketTemplate

/-- The state of the world at a look-up. -/
structure Occasion where
  files : FileTree
  /-- The time in nanoseconds. -/
  now : Int
  /-- A number that is no template's identity. -/
  identity : Nat
  deriving Inhabited

/-- A page that has been compiled. -/
structure Page where
  path : Path
  template : Template
  /-- The time of the newest modification of its files when it was compiled. -/
  modified : Option Int
  /-- When its files were looked at last. -/
  checkedAt : Int
  deriving Inhabited

/-- The templates of pages by name. -/
structure Cache where
  rootdir : Path
  policy : ReloadPolicy
  pages : List (String × Page)
  evaluator : Evaluator
  deriving Inhabited

namespace Page

/-- The time of the newest modification of the files of a page. -/
def modifiedNow (tree : FileTree) (path : Path) (t : Template) :
    Except TemplateError (Option Int) :=
  match newestModification tree t.paths with
  | .ok modified => .ok modified
  | .error fault => .error (.io path fault)

/-- Compiles a page. -/
def compile (o : Occasion) (evaluator : Evaluator) (rootdir path : Path) :
    Except TemplateError Page := do
  let template ← Template.ofFile evaluator o.files o.identity path (some rootdir)
  let modified ← modifiedNow o.files path template
  return { path, template, modified, checkedAt := o.now }

/-- Whether a modification is less than a window ago, or has not come yet. -/
def isRecent (now : Int) (window : Nat) (modified : Int) : Bool :=
  now < modified || now - modified < Int.ofNat window

/-- Whether a page is to be compiled again. -/
def hasChanged (o : Occasion) (policy : ReloadPolicy) (page : Page) : Except TemplateError Bool :=
  match policy with
  | .never => .ok false
  | .always => .ok true
  | .immediate => do
    return (← modifiedNow o.files page.path page.template) != page.modified
  | .debounced window => do
    let modified ← modifiedNow o.files page.path page.template
    if modified.any (isRecent o.now window) then return false
    else return modified != page.modified

/-- A page with the time of the last look at its files, which a policy may be content without. -/
def checked (o : Occasion) (policy : ReloadPolicy) (page : Page) : Page :=
  match policy with
  | .never | .always => page
  | .immediate | .debounced _ => { page with checkedAt := o.now }

end Page

namespace Cache

/-- An empty cache for the pages below a directory. -/
def create (rootdir cwd : Path) (policy : ReloadPolicy) (evaluator : Evaluator) :
    Except TemplateError Cache := do
  return { rootdir := ← rootdir.absolutize cwd, policy, pages := [], evaluator }

/-- The page under a name. -/
def page? (c : Cache) (name : String) : Option Page := c.pages.lookup name

/-- The cache with a page under a name. -/
def put (c : Cache) (name : String) (page : Page) : Cache :=
  { c with
    pages :=
      if c.pages.any (·.1 == name) then
        c.pages.map fun (n, p) => if n == name then (n, page) else (n, p)
      else c.pages ++ [(name, page)] }

/-- The path of the page of a name. -/
def pathOf (c : Cache) (name : String) : Except TemplateError Path := do
  (Path.ofString name).checkSegments
  return c.rootdir.join ⟨name.toList.dropWhile (· = '/')⟩

/-- Compiles a page and puts it under a name; a failure leaves the cache as it is. -/
def compileInto (o : Occasion) (c : Cache) (name : String) (path : Path) :
    Except TemplateError Template × Cache :=
  match Page.compile o c.evaluator c.rootdir path with
  | .error e => (.error e, c)
  | .ok page => (.ok page.template, c.put name page)

/-- The template of a page, compiled if need be. -/
def lookup (o : Occasion) (c : Cache) (name : String) : Except TemplateError Template × Cache :=
  match c.page? name with
  | none =>
    match c.pathOf name with
    | .error e => (.error e, c)
    | .ok path => c.compileInto o name path
  | some page =>
    let looked := c.put name (page.checked o c.policy)
    match page.hasChanged o c.policy with
    | .error e => (.error e, looked)
    | .ok false => (.ok page.template, looked)
    | .ok true => looked.compileInto o name page.path

/-- The template of a page; none when there is no file for it. -/
def get (o : Occasion) (c : Cache) (name : String) :
    Except TemplateError (Option Template) × Cache :=
  match c.lookup o name with
  | (.ok t, c) => (.ok (some t), c)
  | (.error (.io path fault), c) =>
    if fault.isMissing then (.ok none, c) else (.error (.io path fault), c)
  | (.error e, c) => (.error e, c)

/-- The time of the last look at the files of a page. -/
def lastChecked (c : Cache) (name : String) : Option Int := (c.page? name).map (·.checkedAt)

/-- The cache with another policy. -/
def withPolicy (c : Cache) (policy : ReloadPolicy) : Cache := { c with policy }

end Cache

end BracketTemplate
