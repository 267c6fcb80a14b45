/-!
Binary64 arithmetic.

A binary64 floating-point number is a significand of at most 53 bits times a power of two.
Here a number is a scaled integer `mant * 2 ^ exp` (`Scaled`), and `Scaled.round` gives the
nearest one whose significand fits in 53 bits, a tie going to the even significand. Sums,
products and fused products with a sum are computed exactly and rounded once, so they are the
binary64 results wherever those lie in the normal range, which every computation of this
library does.

`Binary64.roundInt n` is the integer nearest to `n` among those a binary64 number holds,
ties to an even significand; this is the value that converting `n` to a binary64 number
gives, as long as it stays below the largest finite binary64 value.

Bit patterns (`Scaled.ofBits`, `Scaled.toBits`) follow the binary64 interchange format: a
sign bit, eleven exponent bits biased by 1023 and 52 fraction bits.
-/

namespace Ember.Binary64

/-- The number of significant bits of a binary64 number. -/
def precision : Nat := 53

/-- `m` rounded to `precision` significant bits, as a significand and a shift:
`m ≈ q * 2 ^ s`, to nearest, ties to an even significand. -/
def roundBits (m : Nat) : Nat × Nat :=
  let bits := Nat.log2 m + 1
  if bits ≤ precision then (m, 0)
  else
    let shift := bits - precision
    let q := m / Nat.pow 2 shift
    let r := m % Nat.pow 2 shift
    let half := Nat.pow 2 (shift - 1)
    (if r > half || (r = half && q % 2 = 1) then q + 1 else q, shift)

/-- `m` rounded to `precision` significant bits, to nearest, ties to an even significand. -/
def roundNat (m : Nat) : Nat :=
  (roundBits m).1 * Nat.pow 2 (roundBits m).2

/-- `n` rounded to the nearest integer that a binary64 number holds, ties to an even
significand. -/
def roundInt (n : Int) : Int :=
  if n < 0 then -((roundNat n.natAbs : Nat) : Int) else (roundNat n.natAbs : Int)

example : roundInt 4052555153018976267 = 4052555153018976256 := by decide +kernel
example : roundInt 9223372036854775807 = 9223372036854775808 := by decide +kernel
example : roundInt (-9007199254740993) = -9007199254740992 := by decide +kernel

/-- The number `mant * 2 ^ exp`. -/
structure Scaled where
  mant : Int
  exp : Int
deriving DecidableEq, Repr

namespace Scaled

/-- The opposite number. -/
def neg (x : Scaled) : Scaled := ⟨-x.mant, x.exp⟩

/-- The nearest number with a significand of `precision` bits, ties to an even significand. -/
def round (x : Scaled) : Scaled :=
  let (q, s) := roundBits x.mant.natAbs
  ⟨if x.mant < 0 then -(q : Int) else q, x.exp + s⟩

/-- The binary64 number nearest to the integer `n`. -/
def ofInt (n : Int) : Scaled := round ⟨n, 0⟩

/-- The exact sum. -/
def exactAdd (a b : Scaled) : Scaled :=
  let e := min a.exp b.exp
  ⟨a.mant * Int.pow 2 (a.exp - e).toNat + b.mant * Int.pow 2 (b.exp - e).toNat, e⟩

/-- The exact product. -/
def exactMul (a b : Scaled) : Scaled := ⟨a.mant * b.mant, a.exp + b.exp⟩

/-- The rounded sum. -/
def add (a b : Scaled) : Scaled := (exactAdd a b).round

/-- The rounded difference. -/
def sub (a b : Scaled) : Scaled := (exactAdd a b.neg).round

/-- The rounded product. -/
def mul (a b : Scaled) : Scaled := (exactMul a b).round

/-- `a * b + c` rounded once. -/
def fma (a b c : Scaled) : Scaled := (exactAdd (exactMul a b) c).round

/-- The number with the bit pattern `u` (a finite pattern: the largest exponent field, kept
for infinities and NaNs, is read as an ordinary exponent). -/
def ofBits (u : Nat) : Scaled :=
  let field : Nat := u / Nat.pow 2 52 % Nat.pow 2 11
  let frac : Nat := u % Nat.pow 2 52
  let m : Int := if field = 0 then frac else frac + Nat.pow 2 52
  let e : Int := (if field = 0 then 1 else (field : Int)) - 1075
  ⟨if u / Nat.pow 2 63 % 2 = 1 then -m else m, e⟩

/-- The bit pattern of a binary64 number of the normal range; zero for zero. The significand
is brought to exactly `precision` bits first. -/
def toBits (x : Scaled) : Nat :=
  let m := x.mant.natAbs
  if m = 0 then 0
  else
    let bits := Nat.log2 m + 1
    let (sig, e) : Nat × Int :=
      if bits ≤ precision then (m * Nat.pow 2 (precision - bits), x.exp - (precision - bits : Nat))
      else (m / Nat.pow 2 (bits - precision), x.exp + (bits - precision : Nat))
    (if x.mant < 0 then Nat.pow 2 63 else 0) + (e + 1075).toNat * Nat.pow 2 52 +
      (sig - Nat.pow 2 52)

/-- The integer part, truncated toward zero. -/
def truncate (x : Scaled) : Int :=
  if 0 ≤ x.exp then x.mant * Int.pow 2 x.exp.toNat else x.mant.tdiv (Int.pow 2 (-x.exp).toNat)

example : (ofBits 0x3ff8000000000000).toBits = 0x3ff8000000000000 := by decide +kernel
example : (ofBits 0xc000000000000000).truncate = -2 := by decide +kernel
example : (ofInt (-2 ^ 63)).toBits = 0xc3e0000000000000 := by decide +kernel
example : (add (ofInt (2 ^ 53)) (ofInt 1)).truncate = 2 ^ 53 := by decide +kernel

end Scaled

end Ember.Binary64
