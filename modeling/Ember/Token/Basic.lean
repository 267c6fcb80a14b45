import Ember.Text.Quoted
/-!
Tokens of the language.

A token has a kind, the text it was read from (its lexeme), a decoded payload and the
position of its first character. Kinds are the literals (`integer`, `string`), identifiers,
the keywords, the operators and punctuation, and the end of the text. `Token.Kind.name` is
the upper-case name under which a kind is shown, and `Token.Kind.ofName` reads it back.

The keyword table maps `null` and `nil` both to `kwNil`; `Token.Kind.keyword?` and
`Token.Kind.symbol?` are the two spelling tables that the scanner consults.
-/

namespace Ember

/-- A place in program text: the line (lines end at a line feed) and the column, counted in
code points; both start at 1. Token lists handed in from outside may carry any integers. -/
structure Pos where
  line : Int
  column : Int
deriving DecidableEq, Repr, Inhabited

namespace Pos

/-- The start of a text. -/
def start : Pos := ⟨1, 1⟩

/-- The position after reading `c` at `p`: a line feed starts a new line. -/
def next (p : Pos) (c : CodePoint) : Pos :=
  if c = .char '\n' then ⟨p.line + 1, 1⟩ else ⟨p.line, p.column + 1⟩

/-- The position after reading the text `cs` from `p`. -/
def advance (p : Pos) (cs : Text) : Pos :=
  cs.foldl next p

/-- The position written `line:column`, as messages show it. -/
def text (p : Pos) : String :=
  toString p.line ++ ":" ++ toString p.column

@[simp] theorem advance_nil (p : Pos) : p.advance [] = p := rfl

@[simp] theorem advance_cons (p : Pos) (c : CodePoint) (cs : Text) :
    p.advance (c :: cs) = (p.next c).advance cs := rfl

theorem advance_append (p : Pos) (cs ds : Text) :
    p.advance (cs ++ ds) = (p.advance cs).advance ds := by
  simp [advance, List.foldl_append]

end Pos

/-- A decoded payload: nothing, a truth value, an integer or a text. Tokens read from
program text carry an integer on number literals, the decoded text on string literals and
names, a truth value on `true` and `false`, and nothing otherwise. -/
inductive Scalar where
  | null
  | bool (b : Bool)
  | int (n : Int)
  | text (s : Text)
deriving DecidableEq, Repr, Inhabited

/-- The kinds of tokens. -/
inductive Token.Kind where
  | integer | string | ident
  | kwLet | kwFn | kwClass | kwThis | kwIf | kwElse | kwFor | kwWhile | kwReturn | kwPrint
  | kwTrue | kwFalse | kwNil
  | pow | equal | notEqual | lessEqual | greaterEqual | and | or
  | assign | bang | less | greater | plus | minus | star | slash
  | comma | semicolon | dot | lparen | rparen | lbrace | rbrace
  | eof
  /-- A kind the language does not have; token lists handed in from outside may name one. -/
  | other (name : String)
deriving DecidableEq, Repr, Inhabited

/-- A token: its kind, its lexeme, its payload and the position of its first character. The
lexeme of a token read from program text is the text it was read from; token lists handed in
from outside may carry any scalar there. -/
structure Token where
  kind : Token.Kind
  lexeme : Scalar
  payload : Scalar
  pos : Pos
deriving DecidableEq, Repr, Inhabited

/-- The payload as messages show it: a text as it is, an integer in decimal, a truth value
as `True` or `False`, and nothing as `None`. -/
def Scalar.display : Scalar → Text
  | .null => "None"
  | .bool true => "True"
  | .bool false => "False"
  | .int n => toString n
  | .text s => s

/-- The payload as messages quote it: a text in quotes (`Text.quote`), anything else as it is
displayed. -/
def Scalar.quoted : Scalar → Text
  | .text s => Text.quote s
  | s => s.display

namespace Token.Kind

/-- Every kind, in the order of the declaration. -/
def all : List Kind :=
  [integer, string, ident, kwLet, kwFn, kwClass, kwThis, kwIf, kwElse, kwFor, kwWhile,
    kwReturn, kwPrint, kwTrue, kwFalse, kwNil, pow, equal, notEqual, lessEqual, greaterEqual,
    and, or, assign, bang, less, greater, plus, minus, star, slash, comma, semicolon, dot,
    lparen, rparen, lbrace, rbrace, eof]

/-- The name under which a kind is shown. -/
def name : Kind → String
  | integer => "INTEGER" | string => "STRING" | ident => "IDENT"
  | kwLet => "LET" | kwFn => "FN" | kwClass => "CLASS" | kwThis => "THIS"
  | kwIf => "IF" | kwElse => "ELSE" | kwFor => "FOR" | kwWhile => "WHILE"
  | kwReturn => "RETURN" | kwPrint => "PRINT" | kwTrue => "TRUE" | kwFalse => "FALSE"
  | kwNil => "NIL"
  | pow => "POW" | equal => "EQUAL" | notEqual => "NOT_EQUAL" | lessEqual => "LESS_EQUAL"
  | greaterEqual => "GREATER_EQUAL" | and => "AND" | or => "OR"
  | assign => "ASSIGN" | bang => "BANG" | less => "LESS" | greater => "GREATER"
  | plus => "PLUS" | minus => "MINUS" | star => "STAR" | slash => "SLASH"
  | comma => "COMMA" | semicolon => "SEMICOLON" | dot => "DOT"
  | lparen => "LPAREN" | rparen => "RPAREN" | lbrace => "LBRACE" | rbrace => "RBRACE"
  | eof => "EOF"
  | other n => n

/-- The kind shown under a name; a name of no kind of the language is a kind of its own. -/
def ofName (s : String) : Kind :=
  (all.find? (·.name = s)).getD (other s)

/-- The keywords with the kinds they stand for; `null` is a second spelling of `nil`. -/
def keywords : List (Text × Kind) :=
  [("let", kwLet), ("fn", kwFn), ("class", kwClass), ("this", kwThis), ("if", kwIf),
    ("else", kwElse), ("for", kwFor), ("while", kwWhile), ("return", kwReturn),
    ("print", kwPrint), ("true", kwTrue), ("false", kwFalse), ("nil", kwNil), ("null", kwNil)]

/-- The keyword spelled `w`, if it is one. -/
def keyword? (w : Text) : Option Kind :=
  keywords.lookup w

/-- The operators and punctuation with the kinds they stand for. -/
def symbols : List (Text × Kind) :=
  [("**", pow), ("==", equal), ("!=", notEqual), ("<=", lessEqual), (">=", greaterEqual),
    ("&&", and), ("||", or), ("=", assign), ("!", bang), ("<", less), (">", greater),
    ("+", plus), ("-", minus), ("*", star), ("/", slash), (",", comma), (";", semicolon),
    (".", dot), ("(", lparen), (")", rparen), ("\x7b", lbrace), ("\x7d", rbrace)]

/-- The operator or punctuation spelled `s`, if it is one. -/
def symbol? (s : Text) : Option Kind :=
  symbols.lookup s

/-- The text a keyword, operator or punctuation kind is written with; literals, names and
the end have none of their own. -/
def spelling? : Kind → Option String
  | kwLet => some "let" | kwFn => some "fn" | kwClass => some "class"
  | kwThis => some "this" | kwIf => some "if" | kwElse => some "else"
  | kwFor => some "for" | kwWhile => some "while" | kwReturn => some "return"
  | kwPrint => some "print" | kwTrue => some "true" | kwFalse => some "false"
  | kwNil => some "nil"
  | pow => some "**" | equal => some "==" | notEqual => some "!="
  | lessEqual => some "<=" | greaterEqual => some ">=" | and => some "&&" | or => some "||"
  | assign => some "=" | bang => some "!" | less => some "<" | greater => some ">"
  | plus => some "+" | minus => some "-" | star => some "*" | slash => some "/"
  | comma => some "," | semicolon => some ";" | dot => some "."
  | lparen => some "(" | rparen => some ")" | lbrace => some "\x7b" | rbrace => some "\x7d"
  | integer | string | ident | eof | other _ => none

end Token.Kind

namespace Token

/-- The end-of-text token at `p`. -/
def endAt (p : Pos) : Token := ⟨.eof, .text "eof", .null, p⟩

end Token

end Ember
