import Ember.Syntax.Basic
import Ember.Value.Operators
import Ember.Store
import Ember.Crash
import Ember.Event
/-!
Running programs.

The evaluator walks the syntax tree against a `Machine`: the store, the code points printed so
far, the trace events kept so far, the trace level, whether the trace is written to a file,
and the current global scope, the one in which the loop runs each input (`Store.global` until
a reset). Expressions give values
(`Eval.expr`), statements give a `Completion`: the value of the statement, if it has one, or
a value being returned from the enclosing function. Faults stop the run (`Stop.fault`); a
width the host's formatting refuses stops it too, and is not a fault of the language
(`Stop.crash`).

Evaluation nests: a statement runs expressions and statements inside it, a call runs the
body of a function. Nested activations sit on a stack of at most `nestingLimit` frames: a
statement, an expression, a block's list of statements, a condition, a call and a print
each take one frame, and so does the list of arguments of a call or of a print while it is
evaluated. An activation with no frame left stops the run with `Fault.recursion`. The frames
left are the measure that makes the evaluator total, together with the length of a list being
worked through and the iterations a loop may still run (`loopLimit`, far more than any run
does).

Scopes: a block runs in a new scope nested in the current one; a call binds the parameters
in a new scope nested in the function's own scope, and runs the body as a block in it; a
class declaration makes a scope for its methods; reading a method from an instance makes a
scope that binds `this` to the instance, nested in the method's scope.

The trace keeps the events (`Event`) whose level is at most the machine's trace level. A trace
written to a file is written event by event as UTF-8, so an event whose line holds a lone
surrogate stops the run with the writer's refusal, a crash of the host.
-/

namespace Ember

/-- Why evaluation stops before its end. -/
inductive Stop where
  | fault (f : Fault)
  | crash (c : Crash)

/-- What running a statement gives: its value, if it has one, or a value returned from the
enclosing function. -/
inductive Completion where
  | normal (v : Option Value)
  | returned (v : Value)

/-- The state of a running program. -/
structure Machine where
  store : Store
  out : Array CodePoint
  trace : Array Event
  level : Nat
  traceFile : Bool
  global : Nat

/-- A fresh machine tracing at `level`, to a file when `traceFile`. -/
def Machine.fresh (level : Nat) (traceFile : Bool) : Machine :=
  ⟨Store.fresh, #[], #[], level, traceFile, Store.global⟩

/-- Evaluation: a computation on the machine that may stop. -/
abbrev Eval := EStateM Stop Machine

/-- How many frames nested evaluation may take. -/
def nestingLimit : Nat := 11990

/-- How many times one loop may run its body. -/
def loopLimit : Nat := Nat.pow 2 64

namespace Eval

/-- Stops with a fault. -/
def fail {α : Type} (f : Fault) : Eval α := throw (.fault f)

/-- The result of an operator, or its fault. -/
def lift {α : Type} : Except Fault α → Eval α
  | .ok a => pure a
  | .error f => fail f

/-- Keeps a trace event when the trace level reports it; a trace file refuses a line with a
lone surrogate. -/
def note (e : Event) : Eval Unit := do
  let m ← get
  if e.shownAt m.level then
    match if m.traceFile then Text.strictRefusal? e.line else none with
    | some r => throw (.crash (.unencodable r))
    | none =>
      modify fun ⟨st, out, trace, level, toFile, g⟩ => ⟨st, out, trace.push e, level, toFile, g⟩

/-- Prints text. -/
def emit (s : Text) : Eval Unit :=
  modify fun ⟨st, out, trace, level, toFile, g⟩ => ⟨st, out ++ s, trace, level, toFile, g⟩

/-- The value of `name` seen from scope `env`. -/
def lookup (env : Nat) (name : Text) : Eval (Option Value) := do
  return (← get).store.lookup env name

/-- Changes the store. -/
def modifyStore (f : Store → Store) : Eval Unit :=
  modify fun ⟨st, out, trace, level, toFile, g⟩ => ⟨f st, out, trace, level, toFile, g⟩

/-- Makes a new scope nested in scope `p`. -/
def newScope (p : Nat) : Eval Nat :=
  modifyGet fun ⟨st, out, trace, level, toFile, g⟩ =>
    let (st, i) := st.child p
    (i, ⟨st, out, trace, level, toFile, g⟩)

/-- Makes a new instance without fields. -/
def newObject : Eval Nat :=
  modifyGet fun ⟨st, out, trace, level, toFile, g⟩ =>
    let (st, r) := st.newObject
    (r, ⟨st, out, trace, level, toFile, g⟩)

/-- Declares a function in scope `env`: binds its name to a closure over `env`. -/
def declare (env : Nat) (f : Func) : Eval Closure := do
  let c : Closure := ⟨f, env⟩
  modifyStore (·.define env f.name.display (.fn c))
  note (.defineFunction f.name.display (f.params.map Scalar.display))
  return c

/-- Binds `name` to `c` in a method table: in place when the name is in it, at the end
otherwise. -/
def setMethod (table : List (Text × Closure)) (name : Text) (c : Closure) :
    List (Text × Closure) :=
  if table.any (·.1 = name) then table.map fun e => if e.1 = name then (name, c) else e
  else table ++ [(name, c)]

/-- Declares methods in the class scope `env`, in order, adding them to `table`. -/
def declareMethods (env : Nat) : List Func → List (Text × Closure) →
    Eval (List (Text × Closure))
  | [], table => pure table
  | m :: ms, table => do
    let c ← declare env m
    declareMethods env ms (setMethod table m.name.display c)

/-- Declares a class in scope `env`. -/
def declareClass (env : Nat) (name : Text) (methods : List Func) : Eval ClassDef := do
  let scope ← newScope env
  let table ← declareMethods scope methods []
  let k : ClassDef := ⟨name, table, scope⟩
  modifyStore (·.define env name (.cls k))
  note (.defineClass name (table.map (·.1)))
  return k

/-- A method bound to an instance: the method's closure in a new scope that binds `this`. -/
def bindMethod (m : Closure) (self : Value) : Eval Value := do
  let scope ← newScope m.scope
  modifyStore (·.define scope "this" self)
  return .fn ⟨m.decl, scope⟩

/-- Prints the arguments of a `print` through the template that is the first of them. -/
def printValues : List Value → Eval Unit
  | .str t :: args =>
    match Template.format t args with
    | .ok s => emit s
    | .error (.host c) => throw (.crash c)
    | .error f => fail (.template f)
  | v :: _ => fail (.templateType v.type)
  | [] => pure ()

mutual

/-- Evaluates an expression in scope `env`, with `n` frames left. -/
def expr : Nat → Nat → Expr → Eval Value
  | 0, _, _ => fail .recursion
  | n + 1, env, e =>
    match e with
    | .literal s => pure (Value.ofScalar s)
    | .var x => do
      match ← lookup env x.display with
      | some v => pure v
      | none => fail (.unbound x.display)
    | .group x => expr n env x
    | .assign x v => do
      let val ← expr n env v
      modifyStore (·.assign env x.display val)
      pure val
    | .binary op _ l r => do
      let a ← expr n env l
      let b ← expr n env r
      lift (op.apply a b)
    | .logical op _ l r => do
      let a ← expr n env l
      let b ← expr n env r
      lift (op.apply a b)
    | .unary op _ x => do
      let a ← expr n env x
      lift (op.apply a)
    | .call c args => do
      let f ← expr n env c
      match f with
      | .fn cl => call n cl args env
      | .cls k =>
        if args.isEmpty then do
          note (.newInstance k.name)
          let r ← newObject
          pure (.obj r k)
        else fail (.classArity k.name args.length)
      | _ => fail (.notCallable f.inspect)
    | .getField t x => do
      let v ← expr n env t
      match v with
      | .obj r k =>
        match ((← get).store.fields r).get? x.display with
        | some fv => pure fv
        | none =>
          match k.methods.lookup x.display with
          | some m => bindMethod m v
          | none => fail (.noProperty x.display k.name)
      | _ => fail (.getOnNonObject v.inspect x.display)
    | .setField t x e => do
      let v ← expr n env t
      match v with
      | .obj r _ => do
        let val ← expr n env e
        modifyStore (·.setField r x.display val)
        pure val
      | _ => fail (.setOnNonObject v.inspect)
    | .thisRef => do
      match ← lookup env "this" with
      | some v => pure v
      | none => fail .thisOutsideMethod
termination_by n _ _ => (n, 0)

/-- Evaluates expressions in order, each with `n` frames left. -/
def exprs (n : Nat) (env : Nat) : List Expr → Eval (List Value)
  | [] => pure []
  | e :: es => do
    let v ← expr n env e
    let vs ← exprs n env es
    pure (v :: vs)
termination_by es => (n, es.length + 1)

/-- Evaluates the arguments of a call or of a `print` in order; the list takes a frame of its
own. -/
def arguments : Nat → Nat → List Expr → Eval (List Value)
  | 0, _, _ => fail .recursion
  | n + 1, env, args => exprs n env args
termination_by n _ _ => (n, 0)

/-- Calls a function with the arguments `args`, evaluated in the caller's scope `env`: checks
their number, binds the parameters in a new scope nested in the function's scope and runs
the body as a block in it. A body that returns nothing gives nil. -/
def call : Nat → Closure → List Expr → Nat → Eval Value
  | 0, _, _, _ => fail .recursion
  | n + 1, cl, args, env => do
    let ps := cl.decl.params
    if args.length ≠ ps.length then
      fail (.functionArity cl.decl.name.display ps.length args.length)
    else do
      let vals ← arguments n env args
      let scope ← newScope cl.scope
      modifyStore fun s => (ps.zip vals).foldl (fun s (p, v) => s.define scope p.display v) s
      note (.call cl.decl.name.display vals)
      match ← stmt n scope (.block cl.decl.body) with
      | .returned v => pure v
      | .normal (some v) => pure v
      | .normal none => pure .nil
termination_by n _ _ _ => (n, 0)

/-- Evaluates a condition, which must give a truth value. -/
def test : Nat → Nat → Expr → Eval Bool
  | 0, _, _ => fail .recursion
  | n + 1, env, c => do
    let v ← expr n env c
    match v with
    | .bool b => pure b
    | _ => fail (.condition v.inspect)
termination_by n _ _ => (n, 0)

/-- Runs a loop with at most `k` more iterations; `last` is the value of the body's last run. -/
def loop (n : Nat) (env : Nat) (c : Expr) (body : Stmt) (last : Option Value) :
    Nat → Eval Completion
  | 0 => fail .recursion
  | k + 1 => do
    if ← test n env c then
      match ← stmt n env body with
      | .returned v => pure (.returned v)
      | .normal v => loop n env c body v k
    else pure (.normal last)
termination_by k => (n, k + 1)

/-- Runs statements in order in scope `env`, stopping at a return; gives the value of the
last one. -/
def stmts (n : Nat) (env : Nat) (last : Option Value) : List Stmt → Eval Completion
  | [] => pure (.normal last)
  | s :: ss => do
    match ← stmt n env s with
    | .returned v => pure (.returned v)
    | .normal v => stmts n env v ss
termination_by ss => (n, ss.length + 1)

/-- Runs the statements of a block in its scope `env`. -/
def block : Nat → Nat → List Stmt → Eval Completion
  | 0, _, _ => fail .recursion
  | n + 1, env, ss => stmts n env none ss
termination_by n _ _ => (n, 0)

/-- Evaluates the arguments of a `print` and prints them. -/
def print : Nat → Nat → List Expr → Eval Unit
  | 0, _, _ => fail .recursion
  | n + 1, env, args => do
    let vals ← arguments n env args
    printValues vals
termination_by n _ _ => (n, 0)

/-- Runs a statement in scope `env`, with `n` frames left. -/
def stmt : Nat → Nat → Stmt → Eval Completion
  | 0, _, _ => fail .recursion
  | n + 1, env, s =>
    match s with
    | .expr e => do
      let v ← expr n env e
      pure (.normal (some v))
    | .letDecl x init => do
      let v ← match init with
        | some e => expr n env e
        | none => pure .nil
      modifyStore (·.define env x.display v)
      note (.bind x.display v)
      pure (.normal (some v))
    | .block ss => do
      let scope ← newScope env
      block n scope ss
    | .funDecl f => do
      let c ← declare env f
      pure (.normal (some (.fn c)))
    | .classDecl x ms => do
      let k ← declareClass env x.display ms
      pure (.normal (some (.cls k)))
    | .ifElse c yes no => do
      let b ← test n env c
      note (.condition b)
      if b then stmt n env yes
      else match no with
        | some s => stmt n env s
        | none => pure (.normal none)
    | .whileLoop c body => loop n env c body none loopLimit
    | .ret v => do
      let val ← match v with
        | some e => expr n env e
        | none => pure .nil
      pure (.returned val)
    | .print args => do
      print n env args
      pure (.normal none)
termination_by n _ _ => (n, 0)

end

end Eval

end Ember
