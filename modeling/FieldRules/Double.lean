/-!
Binary floating-point numbers of double precision, as exact values: a sign, a mantissa and a power
of two. Rounding goes to the nearest number, and of two equally near ones to the even mantissa.
-/

namespace FieldRules

/-- A double-precision number. The finite ones stand for `± mantissa · 2 ^ exponent`. -/
inductive Double
  | nan
  | infinity (negative : Bool)
  | finite (negative : Bool) (mantissa : Nat) (exponent : Int)
  deriving DecidableEq

namespace Double

/-- Mantissas of normal numbers lie from `2 ^ 52` up to this bound. -/
def mantissaBound : Nat := Nat.pow 2 53

/-- The least exponent of a finite number. -/
def minExponent : Int := -1074

/-- The greatest exponent of a finite number. -/
def maxExponent : Int := 971

/-- A quotient rounded to the nearest natural number, a half to the even one. -/
def roundDiv (num den : Nat) : Nat :=
  let q := num / den
  let twice := 2 * (num % den)
  if twice < den ∨ (twice = den ∧ q % 2 = 0) then q else q + 1

/-- The quotient `num / (den · 2 ^ e)` as a fraction of natural numbers. -/
def scale (num den : Nat) (e : Int) : Nat × Nat :=
  (num <<< (-e).toNat, den <<< e.toNat)

/-- The exponent at which the quotient has 53 binary digits, or the least one. -/
def exponentFor (num den : Nat) : Int :=
  let low : Int := (num.log2 : Int) - den.log2 - 53
  let (n, d) := scale num den low
  max minExponent (if n / d < mantissaBound then low else low + 1)

/-- The finite number with this mantissa and exponent, or infinity when it is too large. -/
def pack (negative : Bool) (mantissa : Nat) (exponent : Int) : Double :=
  let (m, e) := if mantissa = mantissaBound then (mantissa / 2, exponent + 1)
    else (mantissa, exponent)
  if e ≤ maxExponent then .finite negative m e else .infinity negative

/-- The number nearest to a quotient of natural numbers. -/
def nearest (negative : Bool) (num den : Nat) : Double :=
  if num = 0 then .finite negative 0 minExponent
  else
    let e := exponentFor num den
    let (n, d) := scale num den e
    pack negative (roundDiv n d) e

/-- The number nearest to `digits · 10 ^ exponent`. Far outside the range of finite numbers the
answer is known without the power. -/
def ofDecimal (negative : Bool) (digits : Nat) (exponent : Int) : Double :=
  let size : Int := exponent + (Nat.toDigits 10 digits).length
  if digits = 0 then .finite negative 0 minExponent
  else if 400 < size then .infinity negative
  else if size < -400 then .finite negative 0 minExponent
  else nearest negative (digits * Nat.pow 10 exponent.toNat) (Nat.pow 10 (-exponent).toNat)

/-- The integer that a number is, if it is one. -/
def toInt? : Double → Option Int
  | .finite negative m e =>
    let n := (m <<< e.toNat) >>> (-e).toNat
    if n <<< (-e).toNat = m <<< e.toNat then some (if negative then -(n : Int) else n) else none
  | _ => none

end Double

end FieldRules
