import DifferentialAnalyzer.Decimal.Basic

/-! The decimal that stands for a double: the fewest digits that read back as it, and of those the
nearest; and the decimal with a given number of significant digits. Both work on the exact value. -/

namespace DifferentialAnalyzer.Decimal

open Binary64

/-- Which of two equally near neighbours is taken. -/
inductive Tie where
  | up
  | even

def Tie.choose (tie : Tie) (below above : Decimal) : Decimal :=
  match tie with
  | .up => above
  | .even => if below.coefficient % 2 = 0 then below else above

/-- The power of ten that the first digit of a nonzero magnitude counts. -/
def leadOfRank (rank : Nat) : Int :=
  if unitsPerOne ≤ units rank then
    ((Nat.toDigits 10 (units rank / unitsPerOne)).length : Int) - 1
  else
    -((Nat.toDigits 10 (unitsPerOne / units rank)).length : Int)

/-- A magnitude counted in steps of `10 ^ exponent`, as a numerator and a denominator. -/
def steps (rank : Nat) (exponent : Int) : Nat × Nat :=
  (units rank * Nat.pow 10 (-exponent).toNat, unitsPerOne * Nat.pow 10 exponent.toNat)

/-- The multiple of `10 ^ exponent` nearest to a magnitude among those that read back as it. -/
def onGrid (tie : Tie) (rank : Nat) (exponent : Int) : Option Decimal :=
  let (num, den) := steps rank exponent
  let below : Decimal := ⟨num / den, exponent⟩
  let above : Decimal := ⟨num / den + 1, exponent⟩
  if below.rank = rank then
    if above.rank = rank then
      match compare (2 * (num % den)) den with
      | .lt => some below
      | .gt => some above
      | .eq => some (tie.choose below above)
    else some below
  else if above.rank = rank then some above
  else none

/-- Every digit of a magnitude. -/
def ofRank (rank : Nat) : Decimal :=
  ⟨units rank * Nat.pow 5 1074, -1074⟩

/-- The decimal with the fewest digits that reads back as a magnitude. -/
def shortest (tie : Tie) (rank : Nat) : Decimal :=
  let lead := leadOfRank rank
  ((List.range 17).findSome? fun (n : Nat) => onGrid tie rank (lead - n)).getD (ofRank rank)

/-- A nonzero magnitude to `count` significant digits, a tie going to the even last digit. -/
def significant (count rank : Nat) : Decimal :=
  let exponent := leadOfRank rank - (count - 1 : Nat)
  let (num, den) := steps rank exponent
  let coefficient := roundEven num den
  if coefficient = Nat.pow 10 count then ⟨Nat.pow 10 (count - 1), exponent + 1⟩
  else ⟨coefficient, exponent⟩

end DifferentialAnalyzer.Decimal
