import Ember.Syntax.Render
import Ember.Syntax.Parse
import Ember.Text.Word
/-!
Well-formed syntax trees: the trees that the reader can give.

The reader makes a tree of a particular shape, and only such trees are written back as the
same tree by `Program.render`. The shape has three parts.

* Precedence (`Expr.prec`): every expression sits on a level of the ladder assignment, `||`,
  `&&`, the comparisons, `+ -`, `* / **`, prefix operators, calls and field reads, primary
  expressions (loosest first, numbered `0` to `8`). The left operand of an infix operator is
  on its level or a tighter one, the right operand on a strictly tighter one; a prefix
  operator takes an operand on its own level or tighter; a callee and the target of a field
  read or write sit on the call level or tighter. Each operator node carries its own
  spelling as its lexeme.
* Arity: a function has at most `maxArity` parameters, a call at most `maxArity` arguments,
  and a `print` at least one argument.
* Names and positions: every name is a word that is no keyword; the body of a conditional or
  a loop is a statement and not a declaration; and the branch taken on a true test of a
  conditional with an else branch does not itself end with a conditional without one, whose
  else the reader would take it to be (`Stmt.endsOpen`).

`Expr.Continues` and `Stops` say which token would make the reader take more than the
tokens of an expression read at a given level.
-/

namespace Ember

open Syntax

/-- How tightly an infix level binds: `||` is `1`, `&&` is `2`, the comparisons `3`, `+ -`
is `4` and `* / **` is `5`. -/
def Level.rank : Level → Nat
  | .or => 1
  | .and => 2
  | .compare => 3
  | .term => 4
  | .factor => 5

/-- The infix level of an operator on values. -/
def BinOp.level : BinOp → Level
  | eq | ne | lt | le | gt | ge => .compare
  | add | sub => .term
  | mul | div | pow => .factor

/-- The infix level of a connective. -/
def LogicOp.level : LogicOp → Level
  | and => .and
  | or => .or

/-- The level of prefix operators. -/
def unaryPrec : Nat := 6

/-- The level of calls and field reads. -/
def callPrec : Nat := 7

/-- The level of primary expressions. -/
def primaryPrec : Nat := 8

/-- The precedence level an expression sits on. -/
def Expr.prec : Expr → Nat
  | .assign .. | .setField .. => 0
  | .logical op .. => op.level.rank
  | .binary op .. => op.level.rank
  | .unary .. => unaryPrec
  | .call .. | .getField .. => callPrec
  | .literal _ | .var _ | .group _ | .thisRef => primaryPrec

/-- Whether a text is a name a program can write: a word, that is an identifier start
followed by word characters, which is no keyword. -/
def Text.isName : Text → Bool
  | [] => false
  | c :: cs =>
    c.is Text.isIdentStart && cs.all (·.is Text.isWordChar) &&
      (Token.Kind.keyword? (c :: cs)).isNone

/-- Whether a scalar is a name a program can write. -/
def Scalar.isName : Scalar → Bool
  | .text w => Text.isName w
  | _ => false

mutual

/-- Whether an expression has the shape the reader gives: operands on the right levels,
operators carrying their spelling, at most `maxArity` arguments to a call, names that are
words. -/
def Expr.wellFormed : Expr → Bool
  | .literal _ | .thisRef => true
  | .var x => x.isName
  | .assign x v => x.isName && v.wellFormed
  | .setField t x v => decide (callPrec ≤ t.prec) && t.wellFormed && x.isName && v.wellFormed
  | .logical op lx l r =>
    lx == .text op.symbol && decide (op.level.rank ≤ l.prec) &&
      decide (op.level.rank < r.prec) && l.wellFormed && r.wellFormed
  | .binary op lx l r =>
    lx == .text op.symbol && decide (op.level.rank ≤ l.prec) &&
      decide (op.level.rank < r.prec) && l.wellFormed && r.wellFormed
  | .unary op lx x => lx == .text op.symbol && decide (unaryPrec ≤ x.prec) && x.wellFormed
  | .group e => e.wellFormed
  | .call c args =>
    decide (callPrec ≤ c.prec) && c.wellFormed && decide (args.length ≤ maxArity) &&
      Expr.allWellFormed args
  | .getField t x => decide (callPrec ≤ t.prec) && t.wellFormed && x.isName

/-- Whether every expression of a list is well formed. -/
def Expr.allWellFormed : List Expr → Bool
  | [] => true
  | e :: es => e.wellFormed && Expr.allWellFormed es

end

/-- Whether a statement may stand where the grammar wants a statement, as the body of a
conditional or a loop: anything but a declaration. -/
def Stmt.isPlain : Stmt → Bool
  | .letDecl .. | .funDecl _ | .classDecl .. => false
  | _ => true

/-- Whether a statement ends with a conditional without an else branch, so that an `else`
written right after it would be read as that conditional's. -/
def Stmt.endsOpen : Stmt → Bool
  | .ifElse _ _ none => true
  | .ifElse _ _ (some s) => s.endsOpen
  | .whileLoop _ body => body.endsOpen
  | _ => false

mutual

/-- Whether a statement has the shape the reader gives: well-formed expressions and names,
statements and not declarations as the bodies of conditionals and loops, no dangling else,
a `print` with at least one argument, and functions of at most `maxArity` parameters. -/
def Stmt.wellFormed : Stmt → Bool
  | .letDecl x init => x.isName && init.all Expr.wellFormed
  | .block ss => Stmt.allWellFormed ss
  | .funDecl f => f.wellFormed
  | .classDecl x ms => x.isName && Func.allWellFormed ms
  | .expr e => e.wellFormed
  | .ifElse c yes no =>
    c.wellFormed && yes.isPlain && yes.wellFormed && (no.isNone || !yes.endsOpen) &&
      Stmt.elseWellFormed no
  | .print args => !args.isEmpty && Expr.allWellFormed args
  | .whileLoop c body => c.wellFormed && body.isPlain && body.wellFormed
  | .ret v => v.all Expr.wellFormed

/-- Whether an optional else branch is a well-formed statement that is no declaration. -/
def Stmt.elseWellFormed : Option Stmt → Bool
  | none => true
  | some s => s.isPlain && s.wellFormed

/-- Whether every statement of a list is well formed. -/
def Stmt.allWellFormed : List Stmt → Bool
  | [] => true
  | s :: ss => s.wellFormed && Stmt.allWellFormed ss

/-- Whether a function has a name, at most `maxArity` parameters that are names, and a
well-formed body. -/
def Func.wellFormed : Func → Bool
  | ⟨x, ps, body⟩ =>
    x.isName && ps.all Scalar.isName && decide (ps.length ≤ maxArity) &&
      Stmt.allWellFormed body

/-- Whether every function of a list is well formed. -/
def Func.allWellFormed : List Func → Bool
  | [] => true
  | f :: fs => f.wellFormed && Func.allWellFormed fs

end

/-- Whether a program has the shape the reader gives. -/
def Program.wellFormed (p : Program) : Bool :=
  Stmt.allWellFormed p.body

/-- A token of kind `k` right after an expression read at level `p` makes the reader take
more: `=` after a whole expression, `(` and `.` after a call or a tighter expression, and an
infix operator on level `p` or a tighter one. -/
def Expr.Continues (p : Nat) (k : Token.Kind) : Prop :=
  (p = 0 ∧ k = .assign) ∨ (p ≤ callPrec ∧ (k = .lparen ∨ k = .dot)) ∨
    ∃ L : Level, (L.infix? k).isSome ∧ p ≤ L.rank

/-- The tokens `rest` do not continue an expression read at level `p`. -/
def Stops (p : Nat) (rest : List Token) : Prop :=
  ∀ t ∈ rest.head?, ¬ Expr.Continues p t.kind

end Ember
