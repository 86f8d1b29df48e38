import DifferentialAnalyzer.Binary64

/-! Arithmetic on doubles that the machine and its expressions share: comparison within a
tolerance, whole numbers, and the remainder of a truncated division, which is always exact. -/

namespace DifferentialAnalyzer

/-- Two numbers are near when their difference is within `abs`, or within `rel` of the larger. -/
structure Tolerance where
  abs : Float
  rel : Float

namespace Tolerance

def absolute (abs : Float) : Tolerance :=
  ⟨abs, 0.0⟩

def standard : Tolerance :=
  ⟨1e-12, 1e-9⟩

end Tolerance

/-- The larger of two numbers; a value that is not a number yields to the other. -/
def largerOf (a b : Float) : Float :=
  if a.isNaN then b
  else if b.isNaN then a
  else if a < b then b
  else a

def nearlyEqual (tol : Tolerance) (a b : Float) : Bool :=
  let diff := (a - b).abs
  diff <= tol.abs || diff <= tol.rel * largerOf a.abs b.abs

/-- Finite and without a fractional part. -/
def isIntegral (x : Float) : Bool :=
  x.isFinite && Binary64.units (Binary64.rank x) % Binary64.unitsPerOne == 0

/-- The double that stands for an undefined result. -/
def notANumber : Float :=
  0.0 / 0.0

/-- What is left of `a` after taking away `b` as often as it fits, with the sign of `a`. -/
def remainder (a b : Float) : Float :=
  if !a.isFinite || b.isNaN || b == 0.0 then notANumber
  else if b.isInf then a
  else
    let left := Binary64.units (Binary64.rank a) % Binary64.units (Binary64.rank b)
    Binary64.toFloat (Binary64.isNegative a) (Binary64.roundUnits left 1)

/-- The whole part, toward zero. -/
def truncate (x : Float) : Float :=
  if x < 0.0 then x.ceil else x.floor

end DifferentialAnalyzer
