/-!
# HTML escaping

The five characters that HTML gives a meaning to are written as entities. Every piece of output that
is not literal template text or raw output passes through here by default.

Escaping works character by character, so it distributes over concatenation (`escape_append`): text
written in pieces and text written at once come out the same.
-/

namespace BracketTemplate.Html

/-- A character as HTML text. -/
def entity (c : Char) : List Char :=
  match c with
  | '&' => ['&', 'a', 'm', 'p', ';']
  | '<' => ['&', 'l', 't', ';']
  | '>' => ['&', 'g', 't', ';']
  | '"' => ['&', 'q', 'u', 'o', 't', ';']
  | '\'' => ['&', 'a', 'p', 'o', 's', ';']
  | c => [c]

/-- A text with the characters `& < > " '` written as entities. -/
def escape (text : List Char) : List Char := text.flatMap entity

@[simp] theorem escape_nil : escape [] = [] := rfl

@[simp] theorem escape_cons (c : Char) (text : List Char) :
    escape (c :: text) = entity c ++ escape text := by simp [escape]

/-- Escaping pieces and escaping the whole are the same. -/
theorem escape_append (s t : List Char) : escape (s ++ t) = escape s ++ escape t := by
  simp [escape]

end BracketTemplate.Html
