import DifferentialAnalyzer.Expr.Parser
import DifferentialAnalyzer.Expr.Reduce

/-! Expressions prepared for many evaluations: what is known beforehand is worked out once. -/

namespace DifferentialAnalyzer

/-- The number that a text stands for. -/
def evalText (src : String) (b : Bindings) : Except ExprError Float := do
  (← Expr.parse src).eval b

inductive Compiled where
  | constant (value : Float)
  | residual (expr : Expr) (free : Names)

namespace Compiled

def ofResidue (r : Residue) : Compiled :=
  match r.expr with
  | .lit v => .constant v
  | e => .residual e r.unknowns

/-- The value under further bindings; a constant needs none. -/
def call : Compiled → Bindings → Except ExprError Float
  | .constant v, _ => .ok v
  | .residual e _, b => e.eval b

def constant? : Compiled → Option Float
  | .constant v => some v
  | .residual _ _ => none

/-- The names that a call has to supply. -/
def free : Compiled → Names
  | .constant _ => []
  | .residual _ names => names

end Compiled

def compileText (src : String) (b : Bindings) : Except ExprError Compiled := do
  .ok (.ofResidue (← (← Expr.parse src).partialEval b))

end DifferentialAnalyzer
