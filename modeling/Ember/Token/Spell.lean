import Ember.Token.Basic
/-!
Writing tokens as program text.

A token is spelled by its kind and payload alone: a keyword or an operator as itself, a name
as its text, a number in decimal, and a string as its value in double quotes, with each
backslash, double quote, tab and line feed written as a backslash escape. Spelled tokens
joined by single spaces read back as the same kinds and payloads, since a space ends every
token and no spelling holds a blank outside a string literal.
-/

namespace Ember.Token

/-- The body of a string literal that denotes the text `cs`. -/
def escapeBody : Text → Text
  | [] => []
  | c :: cs =>
    let e : Text := match c with
      | .char '\\' => [.char '\\', .char '\\']
      | .char '"' => [.char '\\', .char '"']
      | .char '\t' => [.char '\\', .char 't']
      | .char '\n' => [.char '\\', .char 'n']
      | c => [c]
    e ++ escapeBody cs

@[simp] theorem escapeBody_nil : escapeBody [] = [] := rfl

/-- The string literal that denotes the text `s`. -/
def stringLiteral (s : Text) : Text :=
  .char '"' :: escapeBody s ++ [.char '"']

/-- The text of a token, from its kind and payload. -/
def spell (t : Token) : Text :=
  match t.kind with
  | .string => stringLiteral t.payload.display
  | .integer | .ident => t.payload.display
  | k => k.spelling?.getD ""

/-- The text of tokens, separated by single spaces. -/
def spellAll : List Token → Text
  | [] => []
  | [t] => spell t
  | t :: ts => spell t ++ .char ' ' :: spellAll ts

end Ember.Token
