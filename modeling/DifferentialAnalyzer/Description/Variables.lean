import DifferentialAnalyzer.Description.Basic
import DifferentialAnalyzer.Description.Error
import DifferentialAnalyzer.Expr.LetChain

/-! The variables that a description gives names to. -/

namespace DifferentialAnalyzer

/-- The values of the variables in their order. Without a block there are none. -/
def Settings.resolve (s : Settings) : Except DescriptionError LetChain :=
  match s.customVariables with
  | none => .ok ⟨[], 0.0⟩
  | some source => (LetChain.ofText source []).mapError .customVariables

end DifferentialAnalyzer
