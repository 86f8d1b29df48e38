import DifferentialAnalyzer.Decimal.Basic
import DifferentialAnalyzer.Arithmetic

/-! Reading numbers from decimal text. -/

namespace DifferentialAnalyzer

namespace Decimal

def digitValue (c : Char) : Nat :=
  c.toNat - '0'.toNat

def ofDigits (cs : List Char) : Nat :=
  cs.foldl (fun n c => 10 * n + digitValue c) 0

/-- The exponent after its mark: a sign and at least one digit, and nothing behind them. -/
def readExponent (cs : List Char) : Option Int :=
  let (negative, ds) := match cs with
    | '-' :: ds => (true, ds)
    | '+' :: ds => (false, ds)
    | ds => (false, ds)
  if ds.isEmpty || !ds.all Char.isDigit then none
  else some (if negative then -(ofDigits ds : Int) else ofDigits ds)

/-- The end of a numeral, empty or an exponent. -/
def readTail (cs : List Char) : Option Int :=
  match cs with
  | [] => some 0
  | c :: rest => if c == 'e' || c == 'E' then readExponent rest else none

/-- Digits, perhaps with a point among, before or behind them, and perhaps an exponent. -/
def read (cs : List Char) : Option Decimal :=
  let whole := cs.takeWhile Char.isDigit
  let (part, rest) := match cs.dropWhile Char.isDigit with
    | '.' :: rest => (rest.takeWhile Char.isDigit, rest.dropWhile Char.isDigit)
    | rest => ([], rest)
  if whole.isEmpty && part.isEmpty then none
  else (readTail rest).map fun exponent => ⟨ofDigits (whole ++ part), exponent - part.length⟩

end Decimal

/-- An unsigned number, or the name of infinity or of what is not a number in any case. -/
def readMagnitude (negative : Bool) (cs : List Char) : Option Float :=
  match (Decimal.read cs).map (Decimal.toFloat negative) with
  | some x => some x
  | none =>
    let name := String.ofList (cs.map Char.toLower)
    if name == "inf" || name == "infinity" then
      some (Binary64.toFloat negative Binary64.infinityRank)
    else if name == "nan" then some notANumber
    else none

/-- The double nearest to a decimal text with an optional sign. -/
def readFloat (text : String) : Option Float :=
  match text.toList with
  | '-' :: cs => readMagnitude true cs
  | '+' :: cs => readMagnitude false cs
  | cs => readMagnitude false cs

end DifferentialAnalyzer
