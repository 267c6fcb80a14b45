import Ember.Token.Basic
/-!
Syntax trees of programs.

A program is a list of statements. Expressions and statements are inductive types; a
function declaration (`Func`) is a name, its parameters and the statements of its body, and
a class declaration holds its methods as function declarations. A node of an operator keeps
the operator and the lexeme of the token it was read from; the two agree on every tree read
from program text. Names are the payloads of the name tokens they were read from, and
lexemes are the tokens' lexemes: texts on every tree read from program text, any scalar on a
tree read from tokens handed in from outside.

`Stmt.forLoop` is the meaning of a `for` statement: a block holding the initializer and a
`while` loop whose body runs the update after the loop body, with `true` for a missing
condition.

The infix operators sit on five levels (`Level`), loosest first: `||`, `&&`, the comparisons
(all six on one level), `+ -`, and `* / **`; all of them group to the left.
-/

namespace Ember

/-- The infix operators that combine two values: comparisons and arithmetic. -/
inductive BinOp where
  | eq | ne | lt | le | gt | ge | add | sub | mul | div | pow
deriving DecidableEq, Repr

/-- The two connectives of truth values. -/
inductive LogicOp where
  | and | or
deriving DecidableEq, Repr

/-- The prefix operators: negation of a truth value and of an integer. -/
inductive UnaryOp where
  | not | neg
deriving DecidableEq, Repr

/-- The spelling of an infix operator. -/
def BinOp.symbol : BinOp → String
  | eq => "==" | ne => "!=" | lt => "<" | le => "<=" | gt => ">" | ge => ">="
  | add => "+" | sub => "-" | mul => "*" | div => "/" | pow => "**"

/-- The spelling of a connective. -/
def LogicOp.symbol : LogicOp → String
  | and => "&&" | or => "||"

/-- The spelling of a prefix operator. -/
def UnaryOp.symbol : UnaryOp → String
  | not => "!" | neg => "-"

/-- The prefix operator a token kind stands for, if any. -/
def UnaryOp.ofKind? : Token.Kind → Option UnaryOp
  | .bang => some .not
  | .minus => some .neg
  | _ => none

/-- Expressions. -/
inductive Expr where
  /-- A constant: a number, a text, a truth value or nil. -/
  | literal (v : Scalar)
  /-- The value a name is bound to. -/
  | var (name : Scalar)
  /-- Binding a new value to a name. -/
  | assign (name : Scalar) (value : Expr)
  /-- Writing a field of an instance. -/
  | setField (target : Expr) (name : Scalar) (value : Expr)
  /-- A connective, with the lexeme it was written with. -/
  | logical (op : LogicOp) (lexeme : Scalar) (left right : Expr)
  /-- An infix operator, with the lexeme it was written with. -/
  | binary (op : BinOp) (lexeme : Scalar) (left right : Expr)
  /-- A prefix operator, with the lexeme it was written with. -/
  | unary (op : UnaryOp) (lexeme : Scalar) (operand : Expr)
  /-- An expression in parentheses. -/
  | group (e : Expr)
  /-- Calling a function or a class. -/
  | call (callee : Expr) (args : List Expr)
  /-- Reading a field or a method of an instance. -/
  | getField (target : Expr) (name : Scalar)
  /-- The instance a method runs on. -/
  | thisRef
deriving Repr, Inhabited

mutual

/-- Statements. -/
inductive Stmt where
  /-- `let name = init;`: a new binding in the current scope, nil without an initializer. -/
  | letDecl (name : Scalar) (init : Option Expr)
  /-- A block: its statements run in a new scope. -/
  | block (body : List Stmt)
  /-- A function declaration. -/
  | funDecl (f : Func)
  /-- A class declaration with its methods. -/
  | classDecl (name : Scalar) (methods : List Func)
  /-- An expression evaluated for its value and effects. -/
  | expr (e : Expr)
  /-- A conditional with an optional else branch. -/
  | ifElse (test : Expr) (yes : Stmt) (no : Option Stmt)
  /-- Printing through a template, which is the first argument. -/
  | print (args : List Expr)
  /-- A loop that runs its body while the test is true. -/
  | whileLoop (test : Expr) (body : Stmt)
  /-- Leaving the enclosing function with a value, nil when none is given. -/
  | ret (value : Option Expr)

/-- A function or method declaration: its name, its parameters and the statements of its body. -/
structure Func where
  name : Scalar
  params : List Scalar
  body : List Stmt

end

/-- A program: its statements in order. -/
structure Program where
  body : List Stmt

/-- The statement a `for` loop stands for: a block with the initializer, if any, and a loop
on the condition (`true` when none is given) whose body is the loop body followed by the
update, if any. -/
def Stmt.forLoop (init : Option Stmt) (test update : Option Expr) (body : Stmt) : Stmt :=
  let body := match update with
    | some u => .block [body, .expr u]
    | none => body
  let loop := Stmt.whileLoop (test.getD (.literal (.bool true))) body
  match init with
  | some i => .block [i, loop]
  | none => .block [loop]

/-- The levels of infix operators, loosest first. -/
inductive Level where
  | or | and | compare | term | factor
deriving DecidableEq, Repr

/-- An infix operator of some level: a connective or an operator on values. -/
inductive Infix where
  | logical (op : LogicOp)
  | binary (op : BinOp)
deriving DecidableEq, Repr

namespace Level

/-- How many levels are tighter than this one. -/
@[simp] def height : Level → Nat
  | .or => 4
  | .and => 3
  | .compare => 2
  | .term => 1
  | .factor => 0

/-- The infix operator that a token kind stands for on this level, if any. -/
def infix? : Level → Token.Kind → Option Infix
  | .or, .or => some (.logical .or)
  | .and, .and => some (.logical .and)
  | .compare, .greater => some (.binary .gt)
  | .compare, .greaterEqual => some (.binary .ge)
  | .compare, .less => some (.binary .lt)
  | .compare, .lessEqual => some (.binary .le)
  | .compare, .notEqual => some (.binary .ne)
  | .compare, .equal => some (.binary .eq)
  | .term, .minus => some (.binary .sub)
  | .term, .plus => some (.binary .add)
  | .factor, .slash => some (.binary .div)
  | .factor, .star => some (.binary .mul)
  | .factor, .pow => some (.binary .pow)
  | _, _ => none

end Level

/-- The node of an infix operator written `lexeme` between two operands. -/
def Infix.node (op : Infix) (lexeme : Scalar) (left right : Expr) : Expr :=
  match op with
  | .logical o => .logical o lexeme left right
  | .binary o => .binary o lexeme left right

end Ember
