import DifferentialAnalyzer.Decimal.Shortest

/-! The texts of a double: plain positional digits, one digit before the point and an exponent, and
the form that data files hold. -/

namespace DifferentialAnalyzer

namespace Decimal

open Binary64

def zeros (n : Int) : List Char :=
  List.replicate n.toNat '0'

/-- Digits around the point, without an exponent; `whole` is what a whole number ends in. -/
def Numeral.positional (n : Numeral) (whole : List Char) : List Char :=
  if n.lead < 0 then
    '0' :: '.' :: zeros (-n.lead - 1) ++ n.digits
  else if (n.digits.length : Int) ≤ n.lead + 1 then
    n.digits ++ zeros (n.lead + 1 - n.digits.length) ++ whole
  else
    n.digits.take (n.lead + 1).toNat ++ '.' :: n.digits.drop (n.lead + 1).toNat

/-- One digit before the point, then the exponent; `plus` stands before one that is not negative. -/
def Numeral.scientific (n : Numeral) (plus : List Char) : List Char :=
  let mantissa := match n.digits with
    | [] => []
    | [c] => [c]
    | c :: rest => c :: '.' :: rest
  let exponent := (if n.lead < 0 then ['-'] else plus) ++ Nat.toDigits 10 n.lead.natAbs
  mantissa ++ 'e' :: exponent

def shortestNumeral (tie : Tie) (rank : Nat) : Numeral :=
  if rank = 0 then ⟨['0'], 0⟩ else (shortest tie rank).numeral.trimmed

def significantNumeral (count rank : Nat) : Numeral :=
  if rank = 0 then ⟨List.replicate (max count 1) '0', 0⟩ else (significant count rank).numeral

end Decimal

open Decimal

/-- A sign and the text of the magnitude, or the name of what is not a finite number. -/
def floatText (magnitude : Nat → List Char) (x : Float) : String :=
  if x.isNaN then "NaN"
  else
    String.ofList <| (if Binary64.isNegative x then ['-'] else []) ++
      if x.isInf then ['i', 'n', 'f'] else magnitude (Binary64.rank x)

/-- The fewest digits that read back, never with an exponent. -/
def displayFloat : Float → String :=
  floatText fun rank => (shortestNumeral .up rank).positional []

/-- The fewest digits that read back, with an exponent. -/
def scientificFloat : Float → String :=
  floatText fun rank => (shortestNumeral .up rank).scientific []

/-- Exactly `count` significant digits, with an exponent. -/
def significantFloat (count : Nat) : Float → String :=
  floatText fun rank => (significantNumeral count rank).scientific []

/-- The form in a data file: whole numbers end in `.0`, an exponent stands from 10¹⁶ on and below
10⁻⁵, and what is not finite is absent. -/
def dataFloat (x : Float) : String :=
  if x.isFinite then
    floatText (fun rank =>
      let n := shortestNumeral .even rank
      if -5 ≤ n.lead ∧ n.lead ≤ 15 then n.positional ['.', '0'] else n.scientific ['+']) x
  else "null"

end DifferentialAnalyzer
