/-
  File:      DeveSub/Lib/F64.lean
  Subject:   Non-negative IEEE 754 doubles as exact rationals: reading a decimal, multiplying,
             rounding to an integer and the saturating casts to `u64` and `i64`.

  `F64.ofRat` rounds to nearest, ties to even, with the exponent range of a double; a value too
  large is infinity. Lean's `Float` is not used: its operations do not reduce.
-/
import Mathlib.Data.Rat.Defs
import DeveSub.Lib.Text

namespace DeveSub

/-- A non-negative double. -/
inductive F64 where
  | finite (q : Rat)
  | infinity

namespace F64

/-- The integer nearest to `q`, ties to even. -/
def roundHalfEven (q : Rat) : Int :=
  let f := q.floor
  let r := q - f
  if r < 1 / 2 then f
  else if 1 / 2 < r then f + 1
  else if f % 2 = 0 then f
  else f + 1

/-- The binary exponent of a positive rational: `2 ^ e ≤ q < 2 ^ (e + 1)`. -/
def exponent (q : Rat) : Int :=
  let e : Int := (q.num.natAbs.log2 : Int) - (q.den.log2 : Int)
  if (2 : Rat) ^ e ≤ q then e else e - 1

/-- The double nearest to a non-negative rational. -/
def ofRat (q : Rat) : F64 :=
  if q = 0 then .finite 0
  else
    let ulp : Rat := 2 ^ (max (exponent q) (-1022) - 52)
    let v := roundHalfEven (q / ulp) * ulp
    if 2 ^ 1024 ≤ v then .infinity else .finite v

/-- A text of digits with at most one point and at least one digit, as `str::parse::<f64>` reads
    it. -/
def parseDecimal (s : Str) : Option F64 :=
  let read (whole frac : Str) : Option F64 :=
    if whole ++ frac ≠ [] ∧ (whole ++ frac).all Char.isDigit then
      some (ofRat ((Nat.ofDigitChars 10 (whole ++ frac) 0 : Rat) / 10 ^ frac.length))
    else none
  match splitOnce '.' s with
  | some (whole, frac) => read whole frac
  | none => read s []

/-- The product with a natural number that is itself a double. -/
def mulNat (x : F64) (n : Nat) : F64 :=
  match x with
  | .finite q => ofRat (q * n)
  | .infinity => .infinity

/-- `x.round() as u64`: half away from zero, saturating. -/
def roundToU64 : F64 → UInt64
  | .finite q => UInt64.ofNat (min (q + 1 / 2).floor.toNat (2 ^ 64 - 1))
  | .infinity => UInt64.ofNat (2 ^ 64 - 1)

/-- `x as i64`: towards zero, saturating. -/
def truncToI64 : F64 → Int
  | .finite q => min q.floor (2 ^ 63 - 1)
  | .infinity => 2 ^ 63 - 1

end F64

end DeveSub
