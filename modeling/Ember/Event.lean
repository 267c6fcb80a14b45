import Ember.Fault
/-!
Trace events: what a run reports about itself beside its printed text.

Each event has a level (`Event.level`) and a line of text (`Event.line`). A run tracing at
level `k` keeps exactly the events of level at most `k`, in the order they happened; level 0
keeps none. Declarations of functions and classes and the fault that stops a run are level 1;
variable declarations, calls and new instances are level 2; the outcome of an `if` condition
is level 3.
-/

namespace Ember

/-- Something a run reports in its trace. -/
inductive Event where
  /-- A function declared with these parameters. -/
  | defineFunction (name : Text) (params : List Text)
  /-- A class declared with these method names, in the order of its method table. -/
  | defineClass (name : Text) (methods : List Text)
  /-- A variable declared with its first value. -/
  | bind (name : Text) (v : Value)
  /-- A function called with these arguments. -/
  | call (name : Text) (args : List Value)
  /-- A new instance of a class. -/
  | newInstance (className : Text)
  /-- The outcome of the condition of an `if`. -/
  | condition (b : Bool)
  /-- The fault that stopped a top-level statement. -/
  | error (f : Fault)

namespace Event

/-- The least trace level that reports the event. -/
def level : Event → Nat
  | .defineFunction .. | .defineClass .. | .error _ => 1
  | .bind .. | .call .. | .newInstance _ => 2
  | .condition _ => 3

/-- Every event needs a positive trace level. -/
theorem level_pos (e : Event) : 0 < e.level := by
  cases e <;> simp [level]

/-- Texts separated by a comma and a space. -/
def commaList (ts : List Text) : Text :=
  List.intercalate (", " : Text) ts

/-- The line of text that reports the event. -/
def line : Event → Text
  | .defineFunction x ps => "define function " ++ x ++ "(" ++ commaList ps ++ ")"
  | .defineClass x [] => "define class " ++ x ++ " with methods -"
  | .defineClass x ms => "define class " ++ x ++ " with methods " ++ commaList ms
  | .bind x v => "let " ++ x ++ " = " ++ v.inspect
  | .call x vs => "call " ++ x ++ "(" ++ commaList (vs.map Value.inspect) ++ ")"
  | .newInstance x => "new " ++ x ++ " instance"
  | .condition b => "if condition -> " ++ if b then "True" else "False"
  | .error f => "error " ++ f.inspect

/-- Whether a run tracing at level `k` reports the event. -/
def shownAt (k : Nat) (e : Event) : Bool :=
  e.level ≤ k

/-- The text of a trace: each event's line, ending a line. -/
def text (es : Array Event) : Text :=
  es.toList.flatMap (·.line ++ [.char '\n'])

end Event

end Ember
