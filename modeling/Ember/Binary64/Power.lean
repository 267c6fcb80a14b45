import Ember.Binary64.Tables
/-!
The binary64 power.

`Binary64.pow x y` is `x ^ y` for binary64 numbers `x ≠ 0` and `y`, computed as
`exp (y * log |x|)` in binary64 operations, with the sign of `x` when `y` is an odd integer.
Its last bit is that of this computation, which is not always the correctly rounded power:
when the exact power lies at or next to the midpoint of two binary64 numbers, the error of the
approximations decides which of them it gives.

* `logParts` gives `log |x|` as a sum `hi + lo`: `|x| = 2^k * z` with `z` in
  `[0x1.69555p-1, 0x1.69555p0)`, `log |x| = k * ln 2 + log c + log (z/c)` for the point `c` of
  the subinterval of `z` in `logTable`, where `r = z/c - 1` is exact and `log (1 + r)` is a
  polynomial in `r`, the leading terms kept in two parts.
* `expOf` gives `exp (x + xtail)`: `x = k * ln 2 / 128 + r` with an integer `k`,
  `exp x = 2^(k/128) * exp r`, `2^(k/128)` from `expTable` with `k / 128` added to its
  exponent field, and `exp r - 1` a polynomial in `r`.
* `pow` multiplies `y` by `hi + lo` with a fused product keeping the rounding error of
  `y * hi`.

Every operation is one of `Scaled.add`, `Scaled.sub`, `Scaled.mul` and `Scaled.fma`, in the
order given, so the result is fixed to the last bit. The computation holds for results in
the normal range, below `2^1024`.
-/

namespace Ember.Binary64

open Scaled

/-- Where the reduced argument `z` of the logarithm starts, as a bit pattern. -/
def logOffset : Nat := 0x3fe6955500000000

/-- The value of a 64-bit pattern read as a signed integer. -/
def signedWord (u : Nat) : Int :=
  if u < Nat.pow 2 63 then u else (u : Int) - Int.pow 2 64

/-- `log` of the positive number with bit pattern `ix`, as a rounded value and the part
below its last bit. -/
def logParts (ix : Nat) : Scaled × Scaled :=
  let tmp := (ix + Nat.pow 2 64 - logOffset) % Nat.pow 2 64
  let i := tmp / Nat.pow 2 45 % 128
  let k := signedWord tmp / Int.pow 2 52
  let z := ofBits ((ix + Nat.pow 2 64 - tmp / Nat.pow 2 52 % Nat.pow 2 12 * Nat.pow 2 52) %
    Nat.pow 2 64)
  let kd := ofInt k
  let (invc, logc, logctail) := logTable.getD i (0, 0, 0)
  let r := fma z (ofBits invc) (ofInt (-1))
  let t1 := fma kd (ofBits ln2hi) (ofBits logc)
  let t2 := add t1 r
  let lo1 := fma kd (ofBits ln2lo) (ofBits logctail)
  let lo2 := add (sub t1 t2) r
  let ar := mul (ofBits logCoeff0) r
  let ar2 := mul r ar
  let ar3 := mul r ar2
  let hi := add t2 ar2
  let lo3 := fma ar r ar2.neg
  let lo4 := add (sub t2 hi) ar2
  let inner := fma ar2 (fma r (ofBits logCoeff6) (ofBits logCoeff5))
    (fma r (ofBits logCoeff4) (ofBits logCoeff3))
  let poly := fma ar2 inner (fma r (ofBits logCoeff2) (ofBits logCoeff1))
  let lo := fma ar3 poly (add (add (add lo1 lo2) lo3) lo4)
  let y := add hi lo
  (y, add (sub hi y) lo)

/-- `exp (x + xtail)` for `|x| < 512` and a small `xtail`, negated when `negative`. -/
def expOf (x xtail : Scaled) (negative : Bool) : Scaled :=
  let shift := ofBits shiftConst
  let kd := fma (ofBits invLn2N) x shift
  let ki := kd.toBits
  let kd := sub kd shift
  let r := add (fma kd (ofBits negLn2loN) (fma kd (ofBits negLn2hiN) x)) xtail
  let idx := 2 * (ki % 128)
  let signBias := if negative then 0x800 * 128 else 0
  let top := (ki + signBias) * Nat.pow 2 45 % Nat.pow 2 64
  let tail := ofBits (expTable.getD idx 0)
  let scale := ofBits ((expTable.getD (idx + 1) 0 + top) % Nat.pow 2 64)
  let r2 := mul r r
  let t := fma r2 (fma r (ofBits expCoeff3) (ofBits expCoeff2)) (add tail r)
  let tmp := fma (mul r2 r2) (fma r (ofBits expCoeff5) (ofBits expCoeff4)) t
  fma scale tmp scale

/-- Whether a number is an odd integer. -/
def isOddInteger (y : Scaled) : Bool :=
  if 0 ≤ y.exp then y.exp = 0 && y.mant % 2 ≠ 0
  else y.mant % Int.pow 2 (-y.exp).toNat = 0 && (y.mant / Int.pow 2 (-y.exp).toNat) % 2 ≠ 0

/-- The binary64 power `x ^ y` of `x ≠ 0`, for a power in the normal range; for a negative
`x`, `y` is an integer. -/
def pow (x y : Scaled) : Scaled :=
  let bits := x.toBits
  let (hi, lo) := logParts (bits % Nat.pow 2 63)
  let ehi := mul y hi
  let elo := fma y lo (fma y hi ehi.neg)
  expOf ehi elo (decide (bits ≥ Nat.pow 2 63) && isOddInteger y)

example : (pow (ofInt 103624843) (ofInt 2)).truncate = 10738108086774650 := by decide +kernel
example : (pow (ofInt (-208569)) (ofInt 3)).truncate = -9072965859084010 := by decide +kernel
example : (pow (ofInt 3) (ofInt 39)).truncate = 4052555153018976256 := by decide +kernel

end Ember.Binary64
