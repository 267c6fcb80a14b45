import Ember.Syntax.Basic
import Ember.Text.Quoted
/-!
Reading token lists into programs.

The reader is a recursive descent over the tokens before the first end token, one function
per construct. A read returns what it read and the tokens after it. Every construct takes at
least one token, so a read that must take one returns a strictly shorter rest (`Rest`), and
an optional trailing part returns a rest that is no longer (`Tail`). The functions are
measured by the number of tokens left and, for a call on the same tokens, by a rank that
falls from statements to primary expressions; so the reader terminates without fuel, and
tokens after the first end token are never looked at.

Expressions are read by precedence: assignment (grouping to the right, its target checked
after the value is read), then the infix levels of `Level`, loosest first, each grouping to
the left, then prefix operators, then calls and field reads, then primary expressions.

A fault names the first token that does not fit: what was expected and what was found there
(the lexeme, or the end of input). A function with more than eight parameters and a call with
more than eight arguments are faults at the token where the ninth would start.
-/

namespace Ember.Syntax

/-- Why a token list is not a program. -/
inductive Fault where
  /-- The token list is empty or its last token is not an end token. -/
  | noEnd
  /-- The next token (or the end, `none`) is not what the construct needs. -/
  | expected (what : Text) (pos : Pos) (found : Option Scalar)
  /-- A function declares a ninth parameter. -/
  | tooManyParams (name : Scalar) (pos : Pos)
  /-- A call passes a ninth argument. -/
  | tooManyArgs (pos : Pos)
  /-- The left side of `=` is neither a name nor a field read. -/
  | badTarget (pos : Pos)
  /-- The tokens end where an expression should start. -/
  | endInExpr (pos : Pos)
  /-- A token that cannot start an expression. -/
  | unexpected (lexeme : Scalar) (pos : Pos)
deriving DecidableEq, Repr

/-- The most parameters a function, and arguments a call, may have. -/
def maxArity : Nat := 8

/-- The text of a reading fault. -/
def Fault.message : Fault → Text
  | .noEnd => "token stream must end with EOF"
  | .expected what p found =>
    what ++ " at " ++ p.text ++ ", got " ++
      match found with
      | none => "end of input"
      | some l => l.quoted
  | .tooManyParams n p =>
    "function " ++ n.display ++ " has more than " ++ toString maxArity ++ " parameters at " ++
      p.text
  | .tooManyArgs p => "more than " ++ toString maxArity ++ " arguments at " ++ p.text
  | .badTarget p => "invalid assignment target at " ++ p.text
  | .endInExpr p => "unexpected end of input in expression at " ++ p.text
  | .unexpected l p => "unexpected token " ++ l.quoted ++ " at " ++ p.text

/-- The tokens left after a read that took at least one of the tokens `ts`. -/
abbrev Rest (ts : List Token) := {r : List Token // r.length < ts.length}

/-- The tokens left after a read that may have taken none of the tokens `ts`. -/
abbrev Tail (ts : List Token) := {r : List Token // r.length ≤ ts.length}

/-- A read from `ts` that takes at least one token. -/
abbrev Read (ts : List Token) (α : Type) := Except Fault (α × Rest ts)

/-- A rest after the tokens `r` is a rest after `t :: r`. -/
def Rest.cons {t : Token} {r : List Token} (x : Rest r) : Rest (t :: r) :=
  ⟨x.1, Nat.lt_succ_of_lt x.2⟩

/-- A read from the tokens after `t` is a read from `t :: r`. -/
def Read.cons {t : Token} {r : List Token} {α : Type} (x : Read r α) : Read (t :: r) α :=
  x.map fun (a, rest) => (a, rest.cons)

/-- The position of the next token, or of the end when no token is left. -/
def here (e : Pos) : List Token → Pos
  | [] => e
  | t :: _ => t.pos

/-- Whether the next token has kind `k`. -/
def startsWith (k : Token.Kind) : List Token → Bool
  | [] => false
  | t :: _ => t.kind = k

/-- Takes the next token if it has kind `k`. -/
def accept (k : Token.Kind) : (ts : List Token) → Option (Token × Rest ts)
  | [] => none
  | t :: r => if t.kind = k then some (t, ⟨r, by simp⟩) else none

/-- Takes the next token, which must have kind `k`; otherwise the fault says `what` was
expected at the end `e` or at the next token. -/
def expect (e : Pos) (k : Token.Kind) (what : Text) :
    (ts : List Token) → Except Fault (Token × Rest ts)
  | [] => .error (.expected what e none)
  | t :: r =>
    if t.kind = k then .ok (t, ⟨r, by simp⟩) else .error (.expected what t.pos (some t.lexeme))

/-- Reads parameter names after the `acc` already read, up to and including the closing
parenthesis, for the function `name`. -/
def paramsFrom (e : Pos) (name : Scalar) (acc : Array Scalar) (ts : List Token) :
    Except Fault (List Scalar × Rest ts) :=
  if acc.size ≥ maxArity then .error (.tooManyParams name (here e ts)) else do
    let (p, ⟨r1, h1⟩) ← expect e .ident "expected parameter name" ts
    match accept .comma r1 with
    | some (_, ⟨r2, h2⟩) =>
      let (ps, ⟨r3, h3⟩) ← paramsFrom e name (acc.push p.payload) r2
      return (ps, ⟨r3, by omega⟩)
    | none =>
      let (_, ⟨r2, h2⟩) ← expect e .rparen "expected ')' after parameters" r1
      return ((acc.push p.payload).toList, ⟨r2, by omega⟩)
termination_by ts.length

/-- Reads the parameter list of the function `name` after its opening parenthesis, up to and
including the closing one. -/
def paramList (e : Pos) (name : Scalar) (ts : List Token) : Except Fault (List Scalar × Rest ts) :=
  match accept .rparen ts with
  | some (_, rest) => .ok ([], rest)
  | none => paramsFrom e name #[] ts

mutual

/-- Reads a primary expression: a literal, a name, `this`, or an expression in parentheses. -/
def primary (e : Pos) : (ts : List Token) → Except Fault (Expr × Rest ts)
  | [] => .error (.endInExpr e)
  | t :: r =>
    match t.kind with
    | .integer | .string | .kwTrue | .kwFalse => .ok (.literal t.payload, ⟨r, by simp⟩)
    | .kwNil => .ok (.literal .null, ⟨r, by simp⟩)
    | .ident => .ok (.var t.payload, ⟨r, by simp⟩)
    | .kwThis => .ok (.thisRef, ⟨r, by simp⟩)
    | .lparen => do
      let (x, ⟨r1, h1⟩) ← expression e r
      let (_, ⟨r2, h2⟩) ← expect e .rparen "expected ')' after expression" r1
      return (.group x, ⟨r2, by simp only [List.length_cons]; omega⟩)
    | _ => .error (.unexpected t.lexeme t.pos)
termination_by ts => (ts.length, 0)

/-- Reads the calls and field reads that follow `callee`. -/
def callTail (e : Pos) (callee : Expr) : (ts : List Token) → Except Fault (Expr × Tail ts)
  | [] => .ok (callee, ⟨[], Nat.le_refl _⟩)
  | t :: r =>
    if t.kind = .lparen then do
      let (args, ⟨r1, h1⟩) ← callArgs e r
      let (x, ⟨r2, h2⟩) ← callTail e (.call callee args) r1
      return (x, ⟨r2, by simp only [List.length_cons]; omega⟩)
    else if t.kind = .dot then do
      let (n, ⟨r1, h1⟩) ← expect e .ident "expected property name after '.'" r
      let (x, ⟨r2, h2⟩) ← callTail e (.getField callee n.payload) r1
      return (x, ⟨r2, by simp only [List.length_cons]; omega⟩)
    else .ok (callee, ⟨t :: r, Nat.le_refl _⟩)
termination_by ts => (ts.length, 0)

/-- Reads the arguments of a call after its opening parenthesis, up to and including the
closing one. -/
def callArgs (e : Pos) (ts : List Token) : Except Fault (List Expr × Rest ts) :=
  match accept .rparen ts with
  | some (_, rest) => .ok ([], rest)
  | none => argsFrom e #[] ts
termination_by (ts.length, 14)

/-- Reads the arguments of a call after the `acc` already read, up to and including the
closing parenthesis. -/
def argsFrom (e : Pos) (acc : Array Expr) (ts : List Token) : Except Fault (List Expr × Rest ts) :=
  if acc.size ≥ maxArity then .error (.tooManyArgs (here e ts)) else do
    let (x, ⟨r1, h1⟩) ← expression e ts
    match accept .comma r1 with
    | some (_, ⟨r2, h2⟩) =>
      let (xs, ⟨r3, h3⟩) ← argsFrom e (acc.push x) r2
      return (xs, ⟨r3, by omega⟩)
    | none =>
      let (_, ⟨r2, h2⟩) ← expect e .rparen "expected ')' after arguments" r1
      return ((acc.push x).toList, ⟨r2, by omega⟩)
termination_by (ts.length, 13)

/-- Reads a prefix expression: prefix operators, then a primary expression with the calls
and field reads that follow it. -/
def prefixExpr (e : Pos) : (ts : List Token) → Except Fault (Expr × Rest ts)
  | [] => primary e []
  | t :: r =>
    match UnaryOp.ofKind? t.kind with
    | some op => do
      let (x, ⟨r1, h1⟩) ← prefixExpr e r
      return (.unary op t.lexeme x, ⟨r1, by simp only [List.length_cons]; omega⟩)
    | none => do
      let (p, ⟨r1, h1⟩) ← primary e (t :: r)
      let (x, ⟨r2, h2⟩) ← callTail e p r1
      return (x, ⟨r2, by omega⟩)
termination_by ts => (ts.length, 1)

/-- Reads an operand of the infix level `lvl`: an expression of the next tighter level, or a
prefix expression below the tightest one. -/
def operand (e : Pos) (lvl : Level) (ts : List Token) : Except Fault (Expr × Rest ts) :=
  match lvl with
  | .or => infixExpr e .and ts
  | .and => infixExpr e .compare ts
  | .compare => infixExpr e .term ts
  | .term => infixExpr e .factor ts
  | .factor => prefixExpr e ts
termination_by (ts.length, 2 * lvl.height + 2)

/-- Reads the operators of level `lvl` and their right operands that follow `left`, grouping
to the left. -/
def infixTail (e : Pos) (lvl : Level) (left : Expr) :
    (ts : List Token) → Except Fault (Expr × Tail ts)
  | [] => .ok (left, ⟨[], Nat.le_refl _⟩)
  | t :: r =>
    match lvl.infix? t.kind with
    | some op => do
      let (right, ⟨r1, h1⟩) ← operand e lvl r
      let (x, ⟨r2, h2⟩) ← infixTail e lvl (op.node t.lexeme left right) r1
      return (x, ⟨r2, by simp only [List.length_cons]; omega⟩)
    | none => .ok (left, ⟨t :: r, Nat.le_refl _⟩)
termination_by ts => (ts.length, 0)

/-- Reads an expression of the infix level `lvl`. -/
def infixExpr (e : Pos) (lvl : Level) (ts : List Token) : Except Fault (Expr × Rest ts) := do
  let (left, ⟨r1, h1⟩) ← operand e lvl ts
  let (x, ⟨r2, h2⟩) ← infixTail e lvl left r1
  return (x, ⟨r2, by omega⟩)
termination_by (ts.length, 2 * lvl.height + 3)

/-- Reads an expression: an expression of the loosest infix level, and when `=` follows it,
an assignment of the expression after `=` to it, which must be a name or a field read. -/
def expression (e : Pos) (ts : List Token) : Except Fault (Expr × Rest ts) := do
  let (left, ⟨r1, h1⟩) ← infixExpr e .or ts
  match accept .assign r1 with
  | some (eq, ⟨r2, h2⟩) =>
    let (value, ⟨r3, h3⟩) ← expression e r2
    match left with
    | .var n => return (.assign n value, ⟨r3, by omega⟩)
    | .getField obj n => return (.setField obj n value, ⟨r3, by omega⟩)
    | _ => throw (.badTarget eq.pos)
  | none => return (left, ⟨r1, h1⟩)
termination_by (ts.length, 12)

end

/-- Reads an expression unless the next token has kind `k`. -/
def exprUnless (e : Pos) (k : Token.Kind) (ts : List Token) :
    Except Fault (Option Expr × Tail ts) :=
  if startsWith k ts then .ok (none, ⟨ts, Nat.le_refl _⟩)
  else do
    let (x, ⟨r1, h1⟩) ← expression e ts
    return (some x, ⟨r1, Nat.le_of_lt h1⟩)

/-- Reads an expression statement: an expression and a semicolon. -/
def exprStmt (e : Pos) (ts : List Token) : Except Fault (Stmt × Rest ts) := do
  let (x, ⟨r1, h1⟩) ← expression e ts
  let (_, ⟨r2, h2⟩) ← expect e .semicolon "expected ';' after expression" r1
  return (.expr x, ⟨r2, by omega⟩)

/-- Reads a variable declaration after `let`: a name, an optional initializer, a semicolon. -/
def letRest (e : Pos) (ts : List Token) : Except Fault (Stmt × Rest ts) := do
  let (n, ⟨r1, h1⟩) ← expect e .ident "expected variable name after 'let'" ts
  match accept .assign r1 with
  | some (_, ⟨r2, h2⟩) =>
    let (x, ⟨r3, h3⟩) ← expression e r2
    let (_, ⟨r4, h4⟩) ← expect e .semicolon "expected ';' after variable declaration" r3
    return (.letDecl n.payload (some x), ⟨r4, by omega⟩)
  | none =>
    let (_, ⟨r2, h2⟩) ← expect e .semicolon "expected ';' after variable declaration" r1
    return (.letDecl n.payload none, ⟨r2, by omega⟩)

/-- Reads a `return` statement after `return`: an optional value and a semicolon. -/
def returnRest (e : Pos) (ts : List Token) : Except Fault (Stmt × Rest ts) := do
  let (value, ⟨r1, h1⟩) ← exprUnless e .semicolon ts
  let (_, ⟨r2, h2⟩) ← expect e .semicolon "expected ';' after return value" r1
  return (.ret value, ⟨r2, by omega⟩)

/-- Reads the further arguments of a `print` statement, each after a comma. -/
def printArgs (e : Pos) (acc : Array Expr) :
    (ts : List Token) → Except Fault (List Expr × Tail ts)
  | [] => .ok (acc.toList, ⟨[], Nat.le_refl _⟩)
  | t :: r =>
    if t.kind = .comma then do
      let (x, ⟨r1, h1⟩) ← expression e r
      let (xs, ⟨r2, h2⟩) ← printArgs e (acc.push x) r1
      return (xs, ⟨r2, by simp only [List.length_cons]; omega⟩)
    else .ok (acc.toList, ⟨t :: r, Nat.le_refl _⟩)
termination_by ts => ts.length

/-- Reads a `print` statement after `print`: at least one argument in parentheses, and a
semicolon. -/
def printRest (e : Pos) (ts : List Token) : Except Fault (Stmt × Rest ts) := do
  let (_, ⟨r1, h1⟩) ← expect e .lparen "expected '(' after 'print'" ts
  let (first, ⟨r2, h2⟩) ← expression e r1
  let (args, ⟨r3, h3⟩) ← printArgs e #[first] r2
  let (_, ⟨r4, h4⟩) ← expect e .rparen "expected ')' after print arguments" r3
  let (_, ⟨r5, h5⟩) ← expect e .semicolon "expected ';' after print statement" r4
  return (.print args, ⟨r5, by omega⟩)

/-- Reads the initializer of a `for` loop: nothing before a semicolon, a variable
declaration, or an expression statement. -/
def forInit (e : Pos) : (ts : List Token) → Except Fault (Option Stmt × Rest ts)
  | [] => (exprStmt e []).map fun (s, x) => (some s, x)
  | t :: r =>
    if t.kind = .semicolon then .ok (none, ⟨r, by simp⟩)
    else if t.kind = .kwLet then Read.cons ((letRest e r).map fun (s, x) => (some s, x))
    else (exprStmt e (t :: r)).map fun (s, x) => (some s, x)

mutual

/-- Reads a function declaration after `fn`, or a method: a name, the parameter list and
the body. -/
def functionRest (e : Pos) (ts : List Token) : Except Fault (Func × Rest ts) := do
  let (n, ⟨r1, h1⟩) ← expect e .ident "expected function name" ts
  let (_, ⟨r2, h2⟩) ←
    expect e .lparen ("expected '(' after function name " ++ n.payload.display) r1
  let (ps, ⟨r3, h3⟩) ← paramList e n.payload r2
  let (_, ⟨r4, h4⟩) ←
    expect e .lbrace ("expected '\x7b' before body of " ++ n.payload.display) r3
  let (body, ⟨r5, h5⟩) ← blockRest e #[] r4
  return (⟨n.payload, ps, body⟩, ⟨r5, by omega⟩)
termination_by (ts.length, 0)

/-- Reads the declarations of a block after its opening brace and the `acc` already read,
up to and including the closing brace. -/
def blockRest (e : Pos) (acc : Array Stmt) :
    (ts : List Token) → Except Fault (List Stmt × Rest ts)
  | [] => .error (.expected "expected '\x7d' after block" e none)
  | t :: r =>
    if t.kind = .rbrace then .ok (acc.toList, ⟨r, by simp⟩)
    else do
      let (s, ⟨r1, h1⟩) ← declaration e (t :: r)
      let (ss, ⟨r2, h2⟩) ← blockRest e (acc.push s) r1
      return (ss, ⟨r2, by omega⟩)
termination_by ts => (ts.length, 3)

/-- Reads the methods of the class `name` after its opening brace and the `acc` already
read, up to and including the closing brace. -/
def methods (e : Pos) (name : Text) (acc : Array Func) :
    (ts : List Token) → Except Fault (List Func × Rest ts)
  | [] => .error (.expected ("expected '\x7d' after body of class " ++ name) e none)
  | t :: r =>
    if t.kind = .rbrace then .ok (acc.toList, ⟨r, by simp⟩)
    else do
      let (f, ⟨r1, h1⟩) ← functionRest e (t :: r)
      let (fs, ⟨r2, h2⟩) ← methods e name (acc.push f) r1
      return (fs, ⟨r2, by omega⟩)
termination_by ts => (ts.length, 1)

/-- Reads a class declaration after `class`: a name and the methods in braces. -/
def classRest (e : Pos) (ts : List Token) : Except Fault (Stmt × Rest ts) := do
  let (n, ⟨r1, h1⟩) ← expect e .ident "expected class name" ts
  let (_, ⟨r2, h2⟩) ←
    expect e .lbrace ("expected '\x7b' before body of class " ++ n.payload.display) r1
  let (ms, ⟨r3, h3⟩) ← methods e n.payload.display #[] r2
  return (.classDecl n.payload ms, ⟨r3, by omega⟩)
termination_by (ts.length, 0)

/-- Reads a `for` loop after `for` and gives the statement it stands for. -/
def forRest (e : Pos) (ts : List Token) : Except Fault (Stmt × Rest ts) := do
  let (_, ⟨r1, h1⟩) ← expect e .lparen "expected '(' after 'for'" ts
  let (init, ⟨r2, h2⟩) ← forInit e r1
  let (test, ⟨r3, h3⟩) ← exprUnless e .semicolon r2
  let (_, ⟨r4, h4⟩) ← expect e .semicolon "expected ';' after loop condition" r3
  let (update, ⟨r5, h5⟩) ← exprUnless e .rparen r4
  let (_, ⟨r6, h6⟩) ← expect e .rparen "expected ')' after for clauses" r5
  let (body, ⟨r7, h7⟩) ← statement e r6
  return (Stmt.forLoop init test update body, ⟨r7, by omega⟩)
termination_by (ts.length, 0)

/-- Reads a conditional after `if`. -/
def ifRest (e : Pos) (ts : List Token) : Except Fault (Stmt × Rest ts) := do
  let (_, ⟨r1, h1⟩) ← expect e .lparen "expected '(' after 'if'" ts
  let (test, ⟨r2, h2⟩) ← expression e r1
  let (_, ⟨r3, h3⟩) ← expect e .rparen "expected ')' after if condition" r2
  let (yes, ⟨r4, h4⟩) ← statement e r3
  match accept .kwElse r4 with
  | some (_, ⟨r5, h5⟩) =>
    let (no, ⟨r6, h6⟩) ← statement e r5
    return (.ifElse test yes (some no), ⟨r6, by omega⟩)
  | none => return (.ifElse test yes none, ⟨r4, by omega⟩)
termination_by (ts.length, 0)

/-- Reads a `while` loop after `while`. -/
def whileRest (e : Pos) (ts : List Token) : Except Fault (Stmt × Rest ts) := do
  let (_, ⟨r1, h1⟩) ← expect e .lparen "expected '(' after 'while'" ts
  let (test, ⟨r2, h2⟩) ← expression e r1
  let (_, ⟨r3, h3⟩) ← expect e .rparen "expected ')' after while condition" r2
  let (body, ⟨r4, h4⟩) ← statement e r3
  return (.whileLoop test body, ⟨r4, by omega⟩)
termination_by (ts.length, 0)

/-- Reads a statement: a loop, a conditional, a `return`, a `print`, a block, or an
expression statement. -/
def statement (e : Pos) : (ts : List Token) → Except Fault (Stmt × Rest ts)
  | [] => exprStmt e []
  | t :: r =>
    match t.kind with
    | .kwFor => Read.cons (forRest e r)
    | .kwIf => Read.cons (ifRest e r)
    | .kwReturn => Read.cons (returnRest e r)
    | .kwPrint => Read.cons (printRest e r)
    | .kwWhile => Read.cons (whileRest e r)
    | .lbrace => Read.cons ((blockRest e #[] r).map fun (ss, x) => (.block ss, x))
    | _ => exprStmt e (t :: r)
termination_by ts => (ts.length, 1)

/-- Reads a declaration: a variable, function or class declaration, or a statement. -/
def declaration (e : Pos) : (ts : List Token) → Except Fault (Stmt × Rest ts)
  | [] => statement e []
  | t :: r =>
    match t.kind with
    | .kwLet => Read.cons (letRest e r)
    | .kwFn => Read.cons ((functionRest e r).map fun (f, x) => (.funDecl f, x))
    | .kwClass => Read.cons (classRest e r)
    | _ => statement e (t :: r)
termination_by ts => (ts.length, 2)

end

/-- Reads declarations until no token is left, after the `acc` already read. -/
def declarations (e : Pos) (acc : Array Stmt) : (ts : List Token) → Except Fault (List Stmt)
  | [] => .ok acc.toList
  | t :: r => do
    let (s, rest) ← declaration e (t :: r)
    declarations e (acc.push s) rest.1
termination_by ts => ts.length
decreasing_by exact rest.2

end Ember.Syntax

namespace Ember

/-- Reads a program from a token list that ends with an end token. Only the tokens before
the first end token are read; the position of that token is where the text ends. -/
def Program.ofTokens? (ts : List Token) : Except Syntax.Fault Program :=
  match ts.getLast? with
  | some last =>
    if last.kind = .eof then
      let e := ((ts.find? (·.kind = .eof)).map (·.pos)).getD last.pos
      (Syntax.declarations e #[] (ts.takeWhile (·.kind ≠ .eof))).map Program.mk
    else .error .noEnd
  | none => .error .noEnd

end Ember
