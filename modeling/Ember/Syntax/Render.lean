import Ember.Syntax.Basic
import Ember.Token.Spell
/-!
Writing syntax trees as tokens.

`Program.render` gives the tokens of a program, ending with the end token. Parentheses stand
exactly where the tree has a group node, blocks are written in braces, a declaration without
an initializer as `let x;`, functions with `fn` and methods without it, and each literal as
one token carrying its value. Reading the rendered tokens gives back the tree for every tree
that the reader could have made; the operators' lexemes are not written, only their kinds.
-/

namespace Ember

namespace Token

/-- A token of a keyword or an operator. -/
def ofKind (k : Kind) : Token :=
  ⟨k, .text (k.spelling?.getD ""), .null, Pos.start⟩

/-- A name token carrying the name `x`. -/
def ofName (x : Scalar) : Token :=
  ⟨.ident, .text x.display, x, Pos.start⟩

/-- The token of a literal. -/
def ofScalar : Scalar → Token
  | .null => ofKind .kwNil
  | .bool true => ⟨.kwTrue, .text "true", .bool true, Pos.start⟩
  | .bool false => ⟨.kwFalse, .text "false", .bool false, Pos.start⟩
  | .int n => ⟨.integer, .text (toString n), .int n, Pos.start⟩
  | .text s => ⟨.string, .text (stringLiteral s), .text s, Pos.start⟩

end Token

/-- The token kind of an infix operator. -/
def BinOp.kind : BinOp → Token.Kind
  | eq => .equal | ne => .notEqual | lt => .less | le => .lessEqual | gt => .greater
  | ge => .greaterEqual | add => .plus | sub => .minus | mul => .star | div => .slash
  | pow => .pow

/-- The token kind of a connective. -/
def LogicOp.kind : LogicOp → Token.Kind
  | and => .and | or => .or

/-- The token kind of a prefix operator. -/
def UnaryOp.kind : UnaryOp → Token.Kind
  | not => .bang | neg => .minus

/-- Names separated by commas. -/
def Token.names : List Scalar → List Token
  | [] => []
  | [x] => [Token.ofName x]
  | x :: xs => Token.ofName x :: Token.ofKind .comma :: Token.names xs

mutual

/-- The tokens of an expression. -/
def Expr.tokens : Expr → List Token
  | .literal s => [Token.ofScalar s]
  | .var x => [Token.ofName x]
  | .assign x v => Token.ofName x :: Token.ofKind .assign :: v.tokens
  | .setField t x v =>
    t.tokens ++ Token.ofKind .dot :: Token.ofName x :: Token.ofKind .assign :: v.tokens
  | .logical op _ l r => l.tokens ++ Token.ofKind op.kind :: r.tokens
  | .binary op _ l r => l.tokens ++ Token.ofKind op.kind :: r.tokens
  | .unary op _ x => Token.ofKind op.kind :: x.tokens
  | .group e => Token.ofKind .lparen :: e.tokens ++ [Token.ofKind .rparen]
  | .call c args =>
    c.tokens ++ Token.ofKind .lparen :: Expr.listTokens args ++ [Token.ofKind .rparen]
  | .getField t x => t.tokens ++ [Token.ofKind .dot, Token.ofName x]
  | .thisRef => [Token.ofKind .kwThis]

/-- The tokens of expressions separated by commas. -/
def Expr.listTokens : List Expr → List Token
  | [] => []
  | e :: es =>
    e.tokens ++ match es with
      | [] => []
      | _ :: _ => Token.ofKind .comma :: Expr.listTokens es

end

mutual

/-- The tokens of a statement. -/
def Stmt.tokens : Stmt → List Token
  | .letDecl x none => [Token.ofKind .kwLet, Token.ofName x, Token.ofKind .semicolon]
  | .letDecl x (some e) =>
    Token.ofKind .kwLet :: Token.ofName x :: Token.ofKind .assign :: e.tokens ++
      [Token.ofKind .semicolon]
  | .block ss => Token.ofKind .lbrace :: Stmt.listTokens ss ++ [Token.ofKind .rbrace]
  | .funDecl f => Token.ofKind .kwFn :: f.tokens
  | .classDecl x ms =>
    Token.ofKind .kwClass :: Token.ofName x :: Token.ofKind .lbrace :: Func.listTokens ms ++
      [Token.ofKind .rbrace]
  | .expr e => e.tokens ++ [Token.ofKind .semicolon]
  | .ifElse c yes no =>
    Token.ofKind .kwIf :: Token.ofKind .lparen :: c.tokens ++ Token.ofKind .rparen ::
      yes.tokens ++ Stmt.elseTokens no
  | .print args =>
    Token.ofKind .kwPrint :: Token.ofKind .lparen :: Expr.listTokens args ++
      [Token.ofKind .rparen, Token.ofKind .semicolon]
  | .whileLoop c body =>
    Token.ofKind .kwWhile :: Token.ofKind .lparen :: c.tokens ++ Token.ofKind .rparen ::
      body.tokens
  | .ret none => [Token.ofKind .kwReturn, Token.ofKind .semicolon]
  | .ret (some e) => Token.ofKind .kwReturn :: e.tokens ++ [Token.ofKind .semicolon]

/-- The tokens of an optional else branch. -/
def Stmt.elseTokens : Option Stmt → List Token
  | none => []
  | some s => Token.ofKind .kwElse :: s.tokens

/-- The tokens of statements one after another. -/
def Stmt.listTokens : List Stmt → List Token
  | [] => []
  | s :: ss => s.tokens ++ Stmt.listTokens ss

/-- The tokens of a function after `fn`, or of a method: its name, parameters and body. -/
def Func.tokens : Func → List Token
  | ⟨x, ps, body⟩ =>
    Token.ofName x :: Token.ofKind .lparen :: Token.names ps ++ Token.ofKind .rparen ::
      Token.ofKind .lbrace :: Stmt.listTokens body ++ [Token.ofKind .rbrace]

/-- The tokens of methods one after another. -/
def Func.listTokens : List Func → List Token
  | [] => []
  | f :: fs => f.tokens ++ Func.listTokens fs

end

/-- The tokens of a program, ending with the end token. -/
def Program.render (p : Program) : List Token :=
  Stmt.listTokens p.body ++ [Token.endAt Pos.start]

end Ember
