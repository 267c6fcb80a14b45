import Ember.Value.Operators
/-!
Integers of the language are 64-bit words.

An integer of the language lies in `[-2^63, 2^63)` (`Arith.InRange`). Every integer that an
operator makes lies there, whatever its operands: sums, differences, products, negations and
quotients are wrapped (`Arith.wrap`), and a power outside the range has no value. On integers
in the range the operators are those of 64-bit two's complement words (`BitVec 64`):

* `+`, `-`, `*` and prefix `-` are `BitVec` addition, subtraction, multiplication and
  negation, read back as signed integers (`apply_add`, `apply_sub`, `apply_mul`,
  `apply_neg`);
* `/` by a nonzero integer is `BitVec.sdiv`, which truncates toward zero and takes the least
  word divided by `-1` to itself (`apply_div`); `/` by zero is a fault (`apply_div_zero`).
-/

namespace Ember

namespace Arith

/-- An integer is in the 64-bit range `[-2^63, 2^63)`. -/
def InRange (n : Int) : Prop := -Int.pow 2 63 ≤ n ∧ n < Int.pow 2 63

instance (n : Int) : Decidable (InRange n) := inferInstanceAs (Decidable (_ ∧ _))

example : InRange (-9223372036854775808) ∧ ¬ InRange 9223372036854775808 := by decide

theorem int_pow_two_63 : Int.pow 2 63 = 9223372036854775808 := by decide

theorem inRange_iff {n : Int} :
    InRange n ↔ -9223372036854775808 ≤ n ∧ n < 9223372036854775808 := by
  rw [InRange, int_pow_two_63]

/-- A wrapped integer is in the range. -/
theorem wrap_inRange (n : Int) : InRange (wrap n) := by
  have h64 : Nat.pow 2 64 = 18446744073709551616 := by decide
  have hlo := Int.le_bmod (x := n) (m := Nat.pow 2 64) (by decide)
  have hhi := Int.bmod_lt (x := n) (m := Nat.pow 2 64) (by decide)
  rw [h64] at hlo hhi
  rw [inRange_iff, wrap, h64]
  constructor <;> omega

/-- Wrapping is reading the word of an integer back as a signed integer. -/
theorem wrap_eq_toInt (n : Int) : wrap n = (BitVec.ofInt 64 n).toInt :=
  (BitVec.toInt_ofInt n).symm

/-- An integer in the range is the signed reading of its own word. -/
theorem toInt_ofInt_of_inRange {n : Int} (h : InRange n) : (BitVec.ofInt 64 n).toInt = n :=
  BitVec.toInt_ofInt_eq_self (by decide) h.1 h.2

/-- A power has a value only in the range. -/
theorem power_inRange {b e r : Int} (h : power b e = some r) : InRange r := by
  unfold power at h
  split at h
  · split at h
    · cases h
      assumption
    · cases h
  · cases h

end Arith

open Arith

/-! ### Operators make integers in the range -/

/-- What an infix operator gives, whatever its operands: a truth value, a text, or an integer
in the range. -/
theorem BinOp.apply_shape {op : BinOp} {a b v : Value} (h : op.apply a b = .ok v) :
    (∃ n, v = .int n ∧ InRange n) ∨ (∃ x, v = .bool x) ∨ ∃ t, v = .str t := by
  unfold BinOp.apply at h
  split at h
  · -- comparisons give truth values
    split at h
    · cases h
    · split at h <;> cases h <;> exact .inr (.inl ⟨_, rfl⟩)
  · split at h
    · -- `+` adds integers, wrapped, and joins texts
      split at h
      · cases h
      · split at h <;> cases h
        · exact .inl ⟨_, rfl, wrap_inRange _⟩
        · exact .inr (.inr ⟨_, rfl⟩)
    · -- the other operators need integers
      split at h
      · split at h
        · cases h
          exact .inl ⟨_, rfl, wrap_inRange _⟩
        · cases h
          exact .inl ⟨_, rfl, wrap_inRange _⟩
        · split at h
          · cases h
          · cases h
            exact .inl ⟨_, rfl, wrap_inRange _⟩
        · split at h
          · cases h
            exact .inl ⟨_, rfl, power_inRange ‹_›⟩
          · cases h
      · cases h
      · cases h

/-- What a prefix operator gives: a truth value or an integer in the range. -/
theorem UnaryOp.apply_shape {op : UnaryOp} {a v : Value} (h : op.apply a = .ok v) :
    (∃ n, v = .int n ∧ InRange n) ∨ ∃ x, v = .bool x := by
  unfold UnaryOp.apply at h
  split at h
  · cases h
    exact .inr ⟨_, rfl⟩
  · cases h
  · cases h
    exact .inl ⟨_, rfl, wrap_inRange _⟩
  · cases h

/-- A connective gives a truth value. -/
theorem LogicOp.apply_shape {op : LogicOp} {a b v : Value} (h : op.apply a b = .ok v) :
    ∃ x, v = .bool x := by
  unfold LogicOp.apply at h
  split at h
  · cases h
    exact ⟨_, rfl⟩
  · cases h

/-- Whatever the operands, an infix operator that gives an integer gives one in the range. -/
theorem BinOp.apply_inRange {op : BinOp} {a b : Value} {n : Int}
    (h : op.apply a b = .ok (.int n)) : InRange n := by
  rcases BinOp.apply_shape h with ⟨m, hm, hr⟩ | ⟨_, hx⟩ | ⟨_, ht⟩
  · cases hm
    exact hr
  · cases hx
  · cases ht

/-- A prefix operator that gives an integer gives one in the range. -/
theorem UnaryOp.apply_inRange {op : UnaryOp} {a : Value} {n : Int}
    (h : op.apply a = .ok (.int n)) : InRange n := by
  rcases UnaryOp.apply_shape h with ⟨m, hm, hr⟩ | ⟨_, hx⟩
  · cases hm
    exact hr
  · cases hx

/-! ### On the range, the operators are those of 64-bit words -/

section Words

variable {x y : Int}

theorem apply_add (hx : InRange x) (hy : InRange y) :
    BinOp.apply .add (.int x) (.int y) =
      .ok (.int (BitVec.ofInt 64 x + BitVec.ofInt 64 y).toInt) := by
  rw [BitVec.toInt_add, toInt_ofInt_of_inRange hx, toInt_ofInt_of_inRange hy]
  rfl

theorem apply_sub (hx : InRange x) (hy : InRange y) :
    BinOp.apply .sub (.int x) (.int y) =
      .ok (.int (BitVec.ofInt 64 x - BitVec.ofInt 64 y).toInt) := by
  rw [BitVec.toInt_sub, toInt_ofInt_of_inRange hx, toInt_ofInt_of_inRange hy]
  rfl

theorem apply_mul (hx : InRange x) (hy : InRange y) :
    BinOp.apply .mul (.int x) (.int y) =
      .ok (.int (BitVec.ofInt 64 x * BitVec.ofInt 64 y).toInt) := by
  rw [BitVec.toInt_mul, toInt_ofInt_of_inRange hx, toInt_ofInt_of_inRange hy]
  rfl

theorem apply_neg (hx : InRange x) :
    UnaryOp.apply .neg (.int x) = .ok (.int (-BitVec.ofInt 64 x).toInt) := by
  rw [BitVec.toInt_neg, toInt_ofInt_of_inRange hx]
  rfl

/-- Division by a nonzero integer truncates toward zero and wraps, as `BitVec.sdiv` does. -/
theorem apply_div (hx : InRange x) (hy : InRange y) (h0 : y ≠ 0) :
    BinOp.apply .div (.int x) (.int y) =
      .ok (.int ((BitVec.ofInt 64 x).sdiv (BitVec.ofInt 64 y)).toInt) := by
  rw [BitVec.toInt_sdiv, toInt_ofInt_of_inRange hx, toInt_ofInt_of_inRange hy]
  show (if y = 0 then .error .divisionByZero else .ok (.int (wrap (x.tdiv y))) :
    Except Fault Value) = _
  rw [if_neg h0]
  rfl

theorem apply_div_zero (x : Int) :
    BinOp.apply .div (.int x) (.int 0) = .error .divisionByZero := rfl

end Words

/-- The least word divided by `-1` is itself. -/
example : BinOp.apply .div (.int (-9223372036854775808)) (.int (-1)) =
    .ok (.int (-9223372036854775808)) := rfl

end Ember
