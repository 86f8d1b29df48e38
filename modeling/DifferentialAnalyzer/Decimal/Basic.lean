import DifferentialAnalyzer.Binary64

/-! Decimal numbers, a coefficient times a power of ten, and the doubles nearest to them. -/

namespace DifferentialAnalyzer

structure Decimal where
  coefficient : Nat
  exponent : Int
  deriving DecidableEq, Repr

namespace Decimal

def digits (d : Decimal) : List Char :=
  Nat.toDigits 10 d.coefficient

/-- The power of ten that the first digit counts. -/
def leadExponent (d : Decimal) : Int :=
  d.exponent + d.digits.length - 1

def numerator (d : Decimal) : Nat :=
  d.coefficient * Nat.pow 10 d.exponent.toNat

def denominator (d : Decimal) : Nat :=
  Nat.pow 10 (-d.exponent).toNat

/-- The rank of the nearest double. Numbers from 10³⁰⁹ on are infinite and those below 10⁻³²⁴ are
zero, whatever their digits. -/
def rank (d : Decimal) : Nat :=
  if d.coefficient = 0 then 0
  else if 308 < d.leadExponent then Binary64.infinityRank
  else if d.leadExponent < -324 then 0
  else Binary64.nearest d.numerator d.denominator

def toFloat (negative : Bool) (d : Decimal) : Float :=
  Binary64.toFloat negative d.rank

/-- The digits of a number and the power of ten of the first of them. -/
structure Numeral where
  digits : List Char
  lead : Int

def numeral (d : Decimal) : Numeral :=
  ⟨d.digits, d.leadExponent⟩

/-- The same number without zeros at the end. -/
def Numeral.trimmed (n : Numeral) : Numeral :=
  ⟨(n.digits.reverse.dropWhile (· == '0')).reverse, n.lead⟩

end Decimal

end DifferentialAnalyzer
