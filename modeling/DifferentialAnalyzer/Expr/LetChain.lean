import DifferentialAnalyzer.Expr.Compiled
import DifferentialAnalyzer.Text.Blank

/-! Blocks of bindings, each of which may use the ones before it. -/

namespace DifferentialAnalyzer

/-- The values of a block in the order of its text, and the value of the expression at its end. -/
structure LetChain where
  values : List (String × Float)
  result : Float

namespace LetChain

def toBindings (c : LetChain) : Bindings :=
  Bindings.ofList c.values

/-- The last value that the block gives a name. -/
def get? (c : LetChain) (name : String) : Option Float :=
  c.values.reverse.lookup name

/-- Works through the bindings at the front of an expression. -/
def ofExpr : Expr → Bindings → Except ExprError LetChain
  | .bind name value rest, scope => do
    let r ← value.partialEval scope
    match r.expr.value? with
    | some v => do
      let c ← ofExpr rest (scope.insert name v)
      .ok ⟨(name, v) :: c.values, c.result⟩
    | none => .error (.unresolvedBinding name r.unknowns)
  | e, scope => do
    .ok ⟨[], ← e.eval scope⟩

/-- A block of bindings over `base`; a blank text binds nothing and is zero. -/
def ofText (src : String) (base : Bindings) : Except ExprError LetChain :=
  if isBlankText src then .ok ⟨[], 0.0⟩
  else do ofExpr (← Expr.parse src) base

end LetChain

end DifferentialAnalyzer
