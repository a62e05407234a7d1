import FieldRules.Double

/-!
The shortest decimal that reads back as a given finite number, and of the shortest the nearest.
A mantissa and an exponent stand for an interval of reals, from halfway to the neighbour below to
halfway to the neighbour above, with its ends exactly when the mantissa is even.
-/

namespace FieldRules.Double

/-- A decimal `digits · 10 ^ exponent`. -/
structure Decimal where
  digits : Nat
  exponent : Int
  deriving DecidableEq

/-- `digits · 10 ^ p` and `x · 2 ^ e` brought to one scale, so that they compare as naturals. -/
def onOneScale (digits : Nat) (p : Int) (x : Nat) (e : Int) : Nat × Nat :=
  (digits * Nat.pow 10 p.toNat * Nat.pow 2 (-e).toNat,
    x * Nat.pow 2 e.toNat * Nat.pow 10 (-p).toNat)

/-- Whether a decimal lies in the interval that rounds to `m · 2 ^ e`. The gap below a power of
two is half as wide. -/
def Decimal.readsAs (d : Decimal) (m : Nat) (e : Int) : Bool :=
  let low := if m = mantissaBound / 2 ∧ minExponent < e then 4 * m - 1 else 4 * m - 2
  let (a, l) := onOneScale d.digits d.exponent low (e - 2)
  let (b, h) := onOneScale d.digits d.exponent (4 * m + 2) (e - 2)
  if m % 2 = 0 then decide (l ≤ a) && decide (b ≤ h) else decide (l < a) && decide (b < h)

/-- The least `k` with `m · 2 ^ e < 10 ^ k`, for a positive `m`. -/
def decimalSize (m : Nat) (e : Int) : Int :=
  let (_, scaled) := onOneScale 0 (-400) m (max e 0)
  ((Nat.toDigits 10 (scaled / Nat.pow 2 (-e).toNat)).length : Int) - 400

/-- The nearer of the two neighbours of `m · 2 ^ e` on the grid of `10 ^ p`, if either of them
reads back. -/
def onGrid? (m : Nat) (e p : Int) : Option Decimal :=
  let (unit, v) := onOneScale 1 p m e
  let below : Decimal := ⟨v / unit, p⟩
  let above : Decimal := ⟨v / unit + 1, p⟩
  match below.readsAs m e, above.readsAs m e with
  | true, true =>
    let twice := 2 * (v % unit)
    some (if twice < unit ∨ (twice = unit ∧ below.digits % 2 = 0) then below else above)
  | true, false => some below
  | false, true => some above
  | false, false => none

/-- The first grid with a hit, from `10 ^ p` on to finer ones. -/
def firstGrid (m : Nat) (e : Int) : Nat → Int → Decimal
  | 0, p => ⟨m * Nat.pow 2 e.toNat * Nat.pow 10 (-p).toNat / Nat.pow 2 (-e).toNat, p⟩
  | tries + 1, p => (onGrid? m e p).getD (firstGrid m e tries (p - 1))

/-- The shortest decimal that reads back as `m · 2 ^ e`, for a positive `m`. -/
def shortest (m : Nat) (e : Int) : Decimal :=
  firstGrid m e 17 (decimalSize m e - 1)

end FieldRules.Double
