import DifferentialAnalyzer.Arithmetic

/-! Expressions over doubles, with named bindings and with sums and products over a whole range. -/

namespace DifferentialAnalyzer

inductive Sign where
  | plus
  | minus
  deriving DecidableEq, Repr

def Sign.apply : Sign → Float → Float
  | .plus, x => x
  | .minus, x => -x

inductive Operator where
  | add
  | subtract
  | multiply
  | divide
  | remainder
  | power
  | less
  | greater
  | atMost
  | atLeast
  | equal
  | unequal
  deriving DecidableEq, Repr

/-- How far apart two equal numbers may be. -/
def equality : Tolerance :=
  Tolerance.absolute 1e-8

def truth (b : Bool) : Float :=
  if b then 1.0 else 0.0

/-- Comparisons give one for true and zero for false. -/
def Operator.apply : Operator → Float → Float → Float
  | .add, a, b => a + b
  | .subtract, a, b => a - b
  | .multiply, a, b => a * b
  | .divide, a, b => a / b
  | .remainder, a, b => DifferentialAnalyzer.remainder a b
  | .power, a, b => a.pow b
  | .less, a, b => truth (a < b)
  | .greater, a, b => truth (a > b)
  | .atMost, a, b => truth (a <= b)
  | .atLeast, a, b => truth (a >= b)
  | .equal, a, b => truth (nearlyEqual equality a b)
  | .unequal, a, b => truth !(nearlyEqual equality a b)

inductive Quantifier where
  | sum
  | product
  deriving DecidableEq, Repr

namespace Quantifier

/-- What a fold over no terms gives. -/
def identity : Quantifier → Float
  | .sum => 0.0
  | .product => 1.0

def combine : Quantifier → Float → Float → Float
  | .sum, acc, v => acc + v
  | .product, acc, v => acc * v

end Quantifier

inductive Expr where
  | lit (value : Float)
  | var (name : String)
  | unary (sign : Sign) (operand : Expr)
  | binary (op : Operator) (lhs rhs : Expr)
  | call (name : String) (args : List Expr)
  /-- Over every whole number from `first` to `last`, both included. -/
  | quantified (kind : Quantifier) (index : String) (first last body : Expr)
  /-- The name stands for the value in `rest`. -/
  | bind (name : String) (value rest : Expr)

namespace Expr

def value? : Expr → Option Float
  | .lit v => some v
  | _ => none

mutual

/-- How deep sums and products are nested in each other's bodies. -/
def quantifierDepth : Expr → Nat
  | .lit _ => 0
  | .var _ => 0
  | .unary _ operand => operand.quantifierDepth
  | .binary _ lhs rhs => max lhs.quantifierDepth rhs.quantifierDepth
  | .call _ args => quantifierDepthList args
  | .quantified _ _ first last body =>
    max (max first.quantifierDepth last.quantifierDepth) (body.quantifierDepth + 1)
  | .bind _ value rest => max value.quantifierDepth rest.quantifierDepth

def quantifierDepthList : List Expr → Nat
  | [] => 0
  | e :: es => max e.quantifierDepth (quantifierDepthList es)

end

end Expr

end DifferentialAnalyzer
