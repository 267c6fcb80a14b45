import Ember.Template
/-!
Runtime faults: why running a program stops. Each fault has the name of its kind
(`Fault.kind`) and a message (`Fault.message`); a run reports a fault as an error value
`KIND: MESSAGE`.

Type faults cover operands and conditions of the wrong type and templates that do not fit
their arguments; the other kinds are unbound names, division by zero, powers out of range,
calls with the wrong number of arguments, calls of values that are not callable, missing
properties, `this` outside a method, and evaluation nested too deeply.
-/

namespace Ember

/-- Why running a program stops. -/
inductive Fault where
  /-- A condition of `if` or `while` that is not a truth value (shown as its text). -/
  | condition (shown : Text)
  /-- A `print` whose first argument is not a text. -/
  | templateType (t : ValueType)
  /-- A template that does not fit its arguments. -/
  | template (f : Template.Fault)
  /-- Operands of a connective that are not both truth values. -/
  | logicOperands (op : String) (l r : ValueType)
  /-- An operand of `!` that is not a truth value. -/
  | notOperand (shown : Text)
  /-- An operand of prefix `-` that is not an integer. -/
  | negOperand (shown : Text)
  /-- Operands of a comparison of two different types. -/
  | compareTypes (l r : ValueType)
  /-- Operands of a comparison of a type that has no order. -/
  | compareType (t : ValueType)
  /-- Operands of `+` of two different types. -/
  | addTypes (l r : ValueType)
  /-- Operands of `+` of a type that has no sum. -/
  | addType (t : ValueType)
  /-- An operand of `-`, `*`, `/` or `**` that is not an integer. -/
  | notInteger (shown : Text)
  /-- A field read on a value that is not an instance. -/
  | getOnNonObject (shown : Text) (name : Text)
  /-- A field write on a value that is not an instance. -/
  | setOnNonObject (shown : Text)
  /-- A name bound nowhere in the scope chain. -/
  | unbound (name : Text)
  /-- Division by zero. -/
  | divisionByZero
  /-- A power outside the 64-bit range, or zero to a negative power. -/
  | powerRange (b e : Int)
  /-- A call of a class with arguments. -/
  | classArity (name : Text) (count : Nat)
  /-- A call of a function with the wrong number of arguments. -/
  | functionArity (name : Text) (arity count : Nat)
  /-- A call of a value that is neither a function nor a class. -/
  | notCallable (shown : Text)
  /-- A field read of a name that is neither a field nor a method of the instance. -/
  | noProperty (name cls : Text)
  /-- `this` where no method binds it. -/
  | thisOutsideMethod
  /-- Evaluation nested more deeply than the machine allows. -/
  | recursion
deriving DecidableEq, Repr

namespace Fault

/-- The name of the kind of a fault. -/
def kind : Fault → String
  | .condition _ | .templateType _ | .template _ | .logicOperands .. | .notOperand _
  | .negOperand _ | .compareTypes .. | .compareType _ | .addTypes .. | .addType _
  | .notInteger _ | .getOnNonObject .. | .setOnNonObject _ => "TypeError"
  | .unbound _ => "NameError"
  | .divisionByZero => "ZeroDivisionError"
  | .powerRange .. => "OverflowError"
  | .classArity .. | .functionArity .. => "ArityError"
  | .notCallable _ => "CallError"
  | .noProperty .. => "PropertyError"
  | .thisOutsideMethod => "ThisError"
  | .recursion => "RecursionError"

/-- The message of a fault. -/
def message : Fault → Text
  | .condition v => "condition must be a bool value: " ++ v
  | .templateType t => "print: first argument must be a format string, got " ++ t.name
  | .template f => f.message
  | .logicOperands op l r => "operands of " ++ op ++ " must be bool: " ++ l.name ++ ", " ++ r.name
  | .notOperand v => "right value must be boolean: " ++ v
  | .negOperand v => "right value must be integer: " ++ v
  | .compareTypes l r => "can not compare 2 different types: " ++ l.name ++ ", " ++ r.name
  | .compareType t => "unsupported compare type: " ++ t.name
  | .addTypes l r => "can not add 2 different types: " ++ l.name ++ ", " ++ r.name
  | .addType t => "unsupported + for " ++ t.name
  | .notInteger v => v ++ " must be an integer"
  | .getOnNonObject v n =>
    v ++ " can not get property " ++ n ++ ", only class instances have properties"
  | .setOnNonObject v => v ++ " is not a class instance, only instances have fields"
  | .unbound n => "identifier not found: " ++ n
  | .divisionByZero => "integer divide by zero"
  | .powerRange b e => toString b ++ " ** " ++ toString e ++ " is not representable as an integer"
  | .classArity n k => "class " ++ n ++ " takes no arguments, got " ++ toString k
  | .functionArity n a k =>
    "function " ++ n ++ " expects " ++ toString a ++ " arguments, got " ++ toString k
  | .notCallable v => v ++ " is not callable (it should be a function or a class)"
  | .noProperty n c => "property " ++ n ++ " not found on " ++ c ++ " instance"
  | .thisOutsideMethod => "this can not find the class instance (used outside a method)"
  | .recursion => "maximum recursion depth exceeded"

/-- A fault as an error value shows it: `KIND: MESSAGE`. -/
def inspect (f : Fault) : Text :=
  f.kind ++ ": " ++ f.message

end Fault

end Ember
