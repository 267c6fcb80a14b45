import Ember.Eval
/-!
Runs of whole programs.

A run executes the statements of a program one after another in a global scope: a script
in the first one (`Program.run`), an input of the loop in the machine's current one
(`Program.runIn`). It ends
with the value of the last statement (`Outcome.done`, with no value when that statement has
none), with the value of a top-level `return`, or with the first fault (`Outcome.failed`),
which is a trace event unless it is a fault of nesting too
deeply. What was printed, traced and bound before a fault stays. A crash of the host's
formatting ends the run without an outcome.
-/

namespace Ember

/-- How a run of a program ends. -/
inductive Outcome where
  /-- The run went through, with the value of the last statement or of a top-level `return`. -/
  | done (v : Option Value)
  /-- A fault stopped the run. -/
  | failed (f : Fault)

namespace Program

/-- Runs top-level statements in the global scope `env`, after a statement whose value was
`last`. -/
def runStmts (env : Nat) : List Stmt → Option Value → Eval Outcome
  | [], last => pure (.done last)
  | s :: ss, _ => do
    let r ← tryCatch (Sum.inr <$> Eval.stmt nestingLimit env s) fun
      | .fault f => pure (Sum.inl f)
      | .crash c => throw (.crash c)
    match r with
    | .inl f => do
      if f ≠ .recursion then Eval.note (.error f)
      pure (.failed f)
    | .inr (.returned v) => pure (.done (some v))
    | .inr (.normal v) => runStmts env ss v

/-- Runs a program in the global scope `env` of a machine; gives how it ended and the machine
after it, or the crash that ended it. -/
def runIn (env : Nat) (p : Program) (m : Machine) : Except Crash (Outcome × Machine) :=
  match (runStmts env p.body none).run m with
  | .ok o m => .ok (o, m)
  | .error (.crash c) _ => .error c
  | .error (.fault f) m => .ok (.failed f, m)

/-- Runs a program in the first global scope, as a script runs. -/
def run (p : Program) (m : Machine) : Except Crash (Outcome × Machine) :=
  p.runIn Store.global m

end Program

/-- The machine with its printed text and trace emptied, for the next run. -/
def Machine.clearOutput (m : Machine) : Machine :=
  { m with out := #[], trace := #[] }

end Ember
