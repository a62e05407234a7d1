import FieldRules.Double.Shortest

/-!
Texts of floating-point numbers: the shortest digits that read back, laid out by a record of
decisions.
-/

namespace FieldRules.Double

/-- How digits become text. A number `0.ddd · 10 ^ point` is written positionally when `point` lies
between two bounds, otherwise with a signed exponent. -/
structure Layout where
  /-- The least position of the point that is written positionally. -/
  leastPoint : Int
  /-- The greatest position of the point that is written positionally. -/
  mostPoint : Int
  /-- The least number of digits in an exponent. -/
  exponentWidth : Nat
  /-- The text of the number that is not a number. -/
  nan : String
  /-- The text of positive infinity. -/
  infinity : String

/-- Digits with the point at a position, with a nought on a side that would stay empty. -/
def positional (digits : List Char) (point : Int) : List Char :=
  if point ≤ 0 then '0' :: '.' :: List.replicate (-point).toNat '0' ++ digits
  else
    let whole := digits ++ List.replicate (point.toNat - digits.length) '0'
    let fraction := whole.drop point.toNat
    whole.take point.toNat ++ '.' :: (if fraction.isEmpty then ['0'] else fraction)

/-- Digits with the point after the first, then the exponent with its sign. -/
def scientific (width : Nat) (digits : List Char) (exponent : Int) : List Char :=
  let fraction := digits.drop 1
  let power := Nat.toDigits 10 exponent.natAbs
  digits.take 1 ++ (if fraction.isEmpty then [] else '.' :: fraction) ++
    'e' :: (if exponent < 0 then '-' else '+') ::
      List.replicate (width - power.length) '0' ++ power

/-- The text of a decimal that is not nought. -/
def Layout.decimal (l : Layout) (d : Decimal) : List Char :=
  let all := Nat.toDigits 10 d.digits
  let digits := (all.reverse.dropWhile (· == '0')).reverse
  let point := d.exponent + all.length
  if l.leastPoint ≤ point ∧ point ≤ l.mostPoint then positional digits point
  else scientific l.exponentWidth digits (point - 1)

/-- The text of a number. -/
def Layout.chars (l : Layout) : Double → List Char
  | .nan => l.nan.toList
  | .infinity negative => (if negative then ['-'] else []) ++ l.infinity.toList
  | .finite negative m e =>
    (if negative then ['-'] else []) ++
      if m = 0 then ['0', '.', '0'] else l.decimal (shortest m e)

end FieldRules.Double
