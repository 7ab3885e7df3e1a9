import BracketTemplate.Cache.Basic

/-!
# The pages of a directory

Every file below the root directory of a cache is a page, except for those that are hidden: a name
that starts with a dot hides a file, and a directory with all that is in it. A file that its path
does not lead to, for being too long, is passed over, too.
-/

namespace BracketTemplate

/-- Whether a name hides what it names. -/
def isHidden (name : List Char) : Bool := name.head? == some '.'

/-- The path of a page by its place, as seen from the root. -/
def pagePath (place : Place) : Path := ⟨joinWith '/' place⟩

/-- The name of a page by its place below the root. A backslash counts as a slash. -/
def pageName (place : Place) : String :=
  String.ofList ((pagePath place).chars.map fun c => if c = '\\' then '/' else c)

/-- Names in the order of their characters. -/
def sortNames (names : List String) : List String := names.mergeSort fun a b => !decide (b < a)

/-- The names of the pages below a directory. -/
def FileTree.pagesBelow (tree : FileTree) (directory : Path) : Except TemplateError (List String) :=
  match tree.resolve directory with
  | .error fault => .error (.io directory fault)
  | .ok (_, .file ..) => .error (.io directory .notADirectory)
  | .ok (place, .directory) =>
    let pages := (tree.filesBelow place).filter fun p =>
      !p.any isHidden && tree.isFile (directory.join (pagePath p))
    .ok (sortNames (pages.map pageName))

/-- The names of all pages of a cache. -/
def Cache.pageNames (c : Cache) (tree : FileTree) : Except TemplateError (List String) :=
  tree.pagesBelow c.rootdir

end BracketTemplate
