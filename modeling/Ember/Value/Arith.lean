import Ember.Binary64.Power
/-!
Integer arithmetic of the language.

Results of integer arithmetic are 64-bit two's complement words: the exact sum, difference,
product, negation or quotient is wrapped into `[-2^63, 2^63)` (`wrap`). Division truncates
toward zero, so the quotient of the least integer by `-1` wraps to the least integer.
Operands are integers of any size; those the language computes always lie in the range.

A power `b ** e` is computed as binary64 floating point: both operands are first rounded to
binary64, their binary64 power (`Binary64.pow`) is taken and then truncated toward zero. The
result exists when it lies in `[-2^63, 2^63)`; zero to a negative power has none.
For a base of magnitude at least two, a negative exponent gives a magnitude below one, hence
zero, and an exponent of 64 or more gives a magnitude of at least `2^64`, hence no result.
A power of magnitude at most `2^53` is a binary64 number, which `Binary64.pow` returns
exactly, so it is computed as an integer power.
-/

namespace Ember.Arith

/-- The 64-bit two's complement word of an integer: its residue modulo `2^64` in
`[-2^63, 2^63)`. -/
def wrap (n : Int) : Int :=
  n.bmod (Nat.pow 2 64)

example : wrap (2 ^ 63) = -2 ^ 63 ∧ wrap (-2 ^ 63 - 1) = 2 ^ 63 - 1 ∧ wrap 5 = 5 := by decide

/-- The binary64 power of two binary64 integers `x ^ y`, truncated toward zero, or `none`
where the power is undefined or its magnitude is at least `2^64`. -/
def powerOfRounded (x y : Int) : Option Int :=
  if x = 0 then
    if y > 0 then some 0 else if y = 0 then some 1 else none
  else if x = 1 then some 1
  else if x = -1 then some (if y % 2 = 0 then 1 else -1)
  else if y < 0 then some 0
  else if y = 0 then some 1
  else if y ≥ 64 ∨ Nat.pow 2 64 ≤ Nat.pow x.natAbs y.toNat then none
  else if Nat.pow x.natAbs y.toNat ≤ Nat.pow 2 53 then some (Int.pow x y.toNat)
  else some (Binary64.pow (.ofInt x) (.ofInt y)).truncate

/-- `b ** e`: the binary64 power of the binary64 roundings of `b` and `e`, truncated toward
zero, when it lies in the 64-bit range. -/
def power (b e : Int) : Option Int :=
  match powerOfRounded (Binary64.roundInt b) (Binary64.roundInt e) with
  | some v => if -Int.pow 2 63 ≤ v ∧ v < Int.pow 2 63 then some v else none
  | none => none

example : power 3 39 = some 4052555153018976256 := by decide +kernel
example : power (-1) 9223372036854775807 = some 1 := by decide +kernel
example : power (-9223372036854775807) 1 = some (-9223372036854775807 - 1) := by decide +kernel
example : power 9223372036854775801 1 = none := by decide +kernel

end Ember.Arith
