import BracketTemplate.Template.Error

/-!
# Names of bindings

What is bound becomes a global variable of scripts, so its name has to be one: a letter or an
underscore, followed by letters, digits and underscores, and no word of the language. A binding may
be spelled with an at sign in front, which is no part of its name.
-/

namespace BracketTemplate

/-- The words of the language, which are no names. -/
def scriptWords : List String :=
  ["and", "break", "do", "else", "elseif", "end", "false", "for", "function", "goto", "if", "in",
    "local", "nil", "not", "or", "repeat", "return", "then", "true", "until", "while"]

/-- Whether a name can start with a character. -/
def isNameStart (c : Char) : Bool := c.isAlpha || c = '_'

/-- Whether a name can go on with a character. -/
def isNamePart (c : Char) : Bool := c.isAlphanum || c = '_'

/-- Whether a text is a name. -/
def isBindingName (name : String) : Bool :=
  match name.toList with
  | [] => false
  | c :: rest => isNameStart c && rest.all isNamePart && !scriptWords.contains name

/-- The name that a spelling of a binding stands for. -/
def bindingName (spelling : String) : String :=
  match spelling.toList with
  | '@' :: rest => String.ofList rest
  | _ => spelling

/-- Refuses what is no name. -/
def checkBindingName (name : String) : Except TemplateError Unit :=
  if isBindingName name then .ok () else .error (.binding name)

end BracketTemplate
