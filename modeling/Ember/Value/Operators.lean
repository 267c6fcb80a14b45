import Ember.Value.Arith
import Ember.Fault
import Ember.Text.Basic
/-!
The operators on values.

Comparisons need two operands of one type, integers or texts; integers compare as numbers
and texts by their code points, lexicographically. `+` adds integers and joins texts.
Results of integer arithmetic wrap into the 64-bit range (`Arith.wrap`). `-`, `*`, `/` and
`**` need integers, the left operand checked first. The connectives need two truth values,
and so does `!` its operand; prefix `-` needs an integer.
-/

namespace Ember

/-- Whether `op` holds between two ordered operands, given their comparison. -/
def BinOp.holds (op : BinOp) (o : Ordering) : Bool :=
  match op with
  | .eq => o = .eq
  | .ne => o ≠ .eq
  | .lt => o = .lt
  | .le => o ≠ .gt
  | .gt => o = .gt
  | .ge => o ≠ .lt
  | _ => false

/-- Whether an infix operator is a comparison. -/
def BinOp.isComparison : BinOp → Bool
  | .eq | .ne | .lt | .le | .gt | .ge => true
  | _ => false

/-- The value of an infix operator on two values. -/
def BinOp.apply (op : BinOp) (a b : Value) : Except Fault Value :=
  if op.isComparison then
    if a.type ≠ b.type then .error (.compareTypes a.type b.type)
    else match a, b with
      | .int x, .int y => .ok (.bool (op.holds (compare x y)))
      | .str x, .str y => .ok (.bool (op.holds (Text.compareCodes x y)))
      | _, _ => .error (.compareType a.type)
  else if op = .add then
    if a.type ≠ b.type then .error (.addTypes a.type b.type)
    else match a, b with
      | .int x, .int y => .ok (.int (Arith.wrap (x + y)))
      | .str x, .str y => .ok (.str (x ++ y))
      | _, _ => .error (.addType a.type)
  else match a, b with
    | .int x, .int y =>
      match op with
      | .sub => .ok (.int (Arith.wrap (x - y)))
      | .mul => .ok (.int (Arith.wrap (x * y)))
      | .div => if y = 0 then .error .divisionByZero else .ok (.int (Arith.wrap (x.tdiv y)))
      | _ =>
        match Arith.power x y with
        | some r => .ok (.int r)
        | none => .error (.powerRange x y)
    | .int _, _ => .error (.notInteger b.inspect)
    | _, _ => .error (.notInteger a.inspect)

/-- The value of a connective on two values. -/
def LogicOp.apply (op : LogicOp) (a b : Value) : Except Fault Value :=
  match a, b with
  | .bool x, .bool y => .ok (.bool (match op with | .and => x && y | .or => x || y))
  | _, _ => .error (.logicOperands op.symbol a.type b.type)

/-- The value of a prefix operator on a value. -/
def UnaryOp.apply (op : UnaryOp) (a : Value) : Except Fault Value :=
  match op, a with
  | .not, .bool x => .ok (.bool !x)
  | .not, _ => .error (.notOperand a.inspect)
  | .neg, .int x => .ok (.int (Arith.wrap (-x)))
  | .neg, _ => .error (.negOperand a.inspect)

end Ember
