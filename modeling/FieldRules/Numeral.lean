import FieldRules.Fault
import FieldRules.Text.Digit

/-!
Decimal numerals of bounded length. Reading takes digits of every script, writing uses `0` to `9`.
-/

namespace FieldRules.Numeral

/-- The most digits that a numeral may have. -/
def maxDigits : Nat := 4300

/-- The number that a row of digit values stands for, the most significant first. -/
def ofDigits (digits : List Nat) : Nat :=
  digits.foldl (fun n d => 10 * n + d) 0

/-- The value of a row of decimal digits; other characters count as nought. -/
def value (cs : List Char) : Nat :=
  ofDigits (cs.map fun c => (Text.digitValue? c).getD 0)

/-- The value of a row of decimal digits, unless the row is too long. -/
def readNat (cs : List Char) : Except Fault Nat :=
  if cs.length ≤ maxDigits then .ok (value cs) else .error .numeralTooLong

/-- The value of decimal digits after an optional minus sign. -/
def readInt : List Char → Except Fault Int
  | '-' :: cs => (readNat cs).map fun n => -(n : Int)
  | cs => (readNat cs).map fun n => (n : Int)

/-- The digits of an integer, after a minus sign when it is negative. -/
def chars (i : Int) : List Char :=
  if i < 0 then '-' :: Nat.toDigits 10 i.natAbs else Nat.toDigits 10 i.natAbs

/-- The numeral of an integer, unless it is too long. -/
def write (i : Int) : Except Fault (List Char) :=
  if i.natAbs < Nat.pow 10 maxDigits then .ok (chars i) else .error .numeralTooLong

theorem write_eq_ok {i : Int} (h : i.natAbs < Nat.pow 10 maxDigits) : write i = .ok (chars i) :=
  if_pos h

theorem lt_of_write {i : Int} {cs : List Char} (h : write i = .ok cs) :
    i.natAbs < Nat.pow 10 maxDigits := by
  unfold write at h
  split at h
  · assumption
  · cases h

end FieldRules.Numeral
