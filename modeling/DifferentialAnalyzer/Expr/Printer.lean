import DifferentialAnalyzer.Expr.Basic
import DifferentialAnalyzer.Decimal.Text

/-! The text of an expression, with brackets around every operator that stands between two
operands. -/

namespace DifferentialAnalyzer

def Sign.symbol : Sign → String
  | .plus => "+"
  | .minus => "-"

def Operator.symbol : Operator → String
  | .add => "+"
  | .subtract => "-"
  | .multiply => "*"
  | .divide => "/"
  | .remainder => "%"
  | .power => "^"
  | .less => "<"
  | .greater => ">"
  | .atMost => "<="
  | .atLeast => ">="
  | .equal => "=="
  | .unequal => "!="

def Quantifier.keyword : Quantifier → String
  | .sum => "sum"
  | .product => "product"

namespace Expr

mutual

def display : Expr → String
  | .lit v => displayFloat v
  | .var name => name
  | .unary sign operand => sign.symbol ++ operand.display
  | .binary op lhs rhs => "(" ++ lhs.display ++ " " ++ op.symbol ++ " " ++ rhs.display ++ ")"
  | .call name args => name ++ "(" ++ displayList args ++ ")"
  | .quantified kind index first last body =>
    kind.keyword ++ "(" ++ index ++ " = " ++ first.display ++ ", " ++ last.display ++ ", "
      ++ body.display ++ ")"
  | .bind name value rest => name ++ " = " ++ value.display ++ "; " ++ rest.display

def displayList : List Expr → String
  | [] => ""
  | [e] => e.display
  | e :: es => e.display ++ ", " ++ displayList es

end

end Expr

end DifferentialAnalyzer
