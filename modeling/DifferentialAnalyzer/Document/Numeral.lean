import DifferentialAnalyzer.Decimal.Reader
import DifferentialAnalyzer.Document.Basic
import DifferentialAnalyzer.Word

/-! The numbers of JSON text and the values they have. Whole numbers are exact. All others are made
from the digits that fit in a word of 64 bits and one power of ten, which is quick, and for many
digits or large exponents not always the nearest double. -/

namespace DifferentialAnalyzer.Document

/-- The parts of a number as they are written; without a point or a mark there is no part for it. -/
structure Numeral where
  negative : Bool
  whole : List Char
  fraction : Option (List Char)
  exponent : Option (Bool × List Char)

namespace Numeral

/-- Digits, at least one, and what follows them. -/
def scanDigits (cs : List Char) : Option (List Char × List Char) :=
  let digits := cs.takeWhile Char.isDigit
  if digits.isEmpty then none else some (digits, cs.dropWhile Char.isDigit)

/-- Digits that start with a zero only if there is no other. -/
def scanWhole (cs : List Char) : Option (List Char × List Char) := do
  let (digits, rest) ← scanDigits cs
  match digits with
  | '0' :: _ :: _ => none
  | _ => some (digits, rest)

def scanFraction : List Char → Option (Option (List Char) × List Char)
  | '.' :: cs => do
    let (digits, rest) ← scanDigits cs
    some (some digits, rest)
  | cs => some (none, cs)

def scanExponent : List Char → Option (Option (Bool × List Char) × List Char)
  | [] => some (none, [])
  | c :: cs =>
    if c == 'e' || c == 'E' then do
      let (negative, cs) := match cs with
        | '-' :: cs => (true, cs)
        | '+' :: cs => (false, cs)
        | cs => (false, cs)
      let (digits, rest) ← scanDigits cs
      some (some (negative, digits), rest)
    else some (none, c :: cs)

def scan (cs : List Char) : Option (Numeral × List Char) := do
  let (negative, cs) := match cs with
    | '-' :: cs => (true, cs)
    | cs => (false, cs)
  let (whole, cs) ← scanWhole cs
  let (fraction, cs) ← scanFraction cs
  let (exponent, cs) ← scanExponent cs
  some (⟨negative, whole, fraction, exponent⟩, cs)

/-- Takes digits into a number as long as it fits in a word; the digits that are left. -/
def absorb (n : Nat) : List Char → Nat × List Char
  | [] => (n, [])
  | c :: cs =>
    let next := 10 * n + Decimal.digitValue c
    if next < Word.count then absorb next cs else (n, c :: cs)

/-- An exponent has at most this size; a larger one is as good as infinite. -/
def exponentLimit : Nat := 2147483647

def powerOfTen (n : Nat) : Float :=
  Decimal.toFloat false ⟨1, n⟩

/-- A power of ten times a whole number, by one multiplication or one or two divisions; none if it
is too large. -/
def scale (digits : Nat) (exponent : Int) : Option Float :=
  let x := Decimal.toFloat false ⟨digits, 0⟩
  if 0 ≤ exponent then
    if exponent ≤ 308 then
      let y := x * powerOfTen exponent.toNat
      if y.isInf then none else some y
    else if digits = 0 then some x
    else none
  else if -308 ≤ exponent then some (x / powerOfTen (-exponent).toNat)
  else if -616 ≤ exponent then some (x / powerOfTen 308 / powerOfTen (-exponent - 308).toNat)
  else some 0.0

def realMagnitude (n : Numeral) : Option Float :=
  let (digits, dropped) := absorb 0 n.whole
  let fraction := n.fraction.getD []
  let (digits, ignored) := absorb digits fraction
  let start : Int := dropped.length - (fraction.length - ignored.length : Nat)
  match n.exponent with
  | none => scale digits start
  | some (negative, written) =>
    let exponent := Decimal.ofDigits written
    if exponentLimit < exponent then
      if digits = 0 ∨ negative then some 0.0 else none
    else scale digits (if negative then start - exponent else start + exponent)

def real (n : Numeral) : Document :=
  match n.realMagnitude with
  | none => .unreadable
  | some x => .number (.real (if n.negative then -x else x))

/-- The value of a number. Zero with a sign is no whole number. -/
def value (n : Numeral) : Document :=
  match n.fraction, n.exponent with
  | none, none =>
    let m := Decimal.ofDigits n.whole
    if n.negative then
      if 0 < m ∧ m ≤ Word.half then .number (.integer (-m)) else n.real
    else if m < Word.count then .number (.integer m)
    else n.real
  | _, _ => n.real

end Numeral

end DifferentialAnalyzer.Document
