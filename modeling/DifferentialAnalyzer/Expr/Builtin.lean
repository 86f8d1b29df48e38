import DifferentialAnalyzer.Arithmetic

/-! The constants and functions that every expression may name. -/

namespace DifferentialAnalyzer

inductive Builtin where
  | unary (f : Float → Float)
  | binary (f : Float → Float → Float)

namespace Builtin

def constant? : String → Option Float
  | "e" => some 2.718281828459045
  | "pi" => some 3.141592653589793
  | "tau" => some 6.283185307179586
  | "phi" => some 1.618033988749895
  | _ => none

def arity : Builtin → Nat
  | .unary _ => 1
  | .binary _ => 2

/-- The value, if the number of arguments is right. -/
def call? : Builtin → List Float → Option Float
  | .unary f, [x] => some (f x)
  | .binary f, [a, b] => some (f a b)
  | _, _ => none

/-- One with the sign of `x`; zeros and what is not a number stay as they are. -/
def signum (x : Float) : Float :=
  if x > 0.0 then 1.0 else if x < 0.0 then -1.0 else x

def least (a b : Float) : Float :=
  if a.isNaN || b.isNaN then notANumber else if a < b then a else b

def greatest (a b : Float) : Float :=
  if a.isNaN || b.isNaN then notANumber else if a > b then a else b

/-- The logarithm of `x` to a base. -/
def logarithm (base x : Float) : Float :=
  x.log / base.log

def degreesPerRadian : Float :=
  180.0 / 3.141592653589793

def radiansPerDegree : Float :=
  3.141592653589793 / 180.0

def find? : String → Option Builtin
  | "abs" => some (.unary Float.abs)
  | "acos" => some (.unary Float.acos)
  | "acosh" => some (.unary Float.acosh)
  | "acot" => some (.unary fun x => (1.0 / x).atan)
  | "acoth" => some (.unary fun x => (1.0 / x).atanh)
  | "acsc" => some (.unary fun x => (1.0 / x).asin)
  | "acsch" => some (.unary fun x => (1.0 / x).asinh)
  | "asec" => some (.unary fun x => (1.0 / x).acos)
  | "asech" => some (.unary fun x => (1.0 / x).acosh)
  | "asin" => some (.unary Float.asin)
  | "asinh" => some (.unary Float.asinh)
  | "atan" => some (.unary Float.atan)
  | "atan2" => some (.binary Float.atan2)
  | "atanh" => some (.unary Float.atanh)
  | "ceil" => some (.unary Float.ceil)
  | "cos" => some (.unary Float.cos)
  | "cosh" => some (.unary Float.cosh)
  | "cot" => some (.unary fun x => 1.0 / x.tan)
  | "coth" => some (.unary fun x => 1.0 / x.tanh)
  | "csc" => some (.unary fun x => 1.0 / x.sin)
  | "csch" => some (.unary fun x => 1.0 / x.sinh)
  | "deg" => some (.unary fun x => x * degreesPerRadian)
  | "exp" => some (.unary Float.exp)
  | "floor" => some (.unary Float.floor)
  | "ln" => some (.unary Float.log)
  | "log" => some (.binary logarithm)
  | "max" => some (.binary greatest)
  | "min" => some (.binary least)
  | "rad" => some (.unary fun x => x * radiansPerDegree)
  | "sec" => some (.unary fun x => 1.0 / x.cos)
  | "sech" => some (.unary fun x => 1.0 / x.cosh)
  | "sign" => some (.unary signum)
  | "sin" => some (.unary Float.sin)
  | "sinh" => some (.unary Float.sinh)
  | "tan" => some (.unary Float.tan)
  | "tanh" => some (.unary Float.tanh)
  | "trunc" => some (.unary truncate)
  | _ => none

end Builtin

end DifferentialAnalyzer
