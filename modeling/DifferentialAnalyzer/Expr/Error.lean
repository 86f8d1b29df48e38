import DifferentialAnalyzer.Expr.Basic

/-! What can be wrong with an expression, from its characters to its value. -/

namespace DifferentialAnalyzer

inductive ExprError where
  | invalidCharacter (text : String) (offset : Nat)
  | invalidNumber (text : String) (offset : Nat)
  | emptyExpression
  | unexpectedEnd
  | unexpectedToken (text : String) (offset : Nat)
  | unclosedBracket (offset : Nat)
  | unknownFunction (name : String)
  | arityMismatch (name : String) (expected found : Nat)
  | undefinedVariables (names : List String)
  | unresolvedBinding (name : String) (missing : List String)
  | nonIntegerRange (kind : Quantifier)
  | rangeTooLarge (kind : Quantifier) (limit : Nat)
  deriving DecidableEq

/-- The word that messages use. -/
def Quantifier.title : Quantifier → String
  | .sum => "summation"
  | .product => "product"

namespace ExprError

/-- The kind of error in one word. -/
def label : ExprError → String
  | .invalidCharacter .. => "InvalidCharacter"
  | .invalidNumber .. => "InvalidNumber"
  | .emptyExpression => "EmptyExpression"
  | .unexpectedEnd => "UnexpectedEnd"
  | .unexpectedToken .. => "UnexpectedToken"
  | .unclosedBracket .. => "UnclosedBracket"
  | .unknownFunction .. => "UnknownFunction"
  | .arityMismatch .. => "ArityMismatch"
  | .undefinedVariables .. => "UndefinedVariables"
  | .unresolvedBinding .. => "UnresolvedBinding"
  | .nonIntegerRange .. => "NonIntegerRange"
  | .rangeTooLarge .. => "RangeTooLarge"

def quoted (names : List String) : String :=
  ", ".intercalate (names.map fun name => s!"'{name}'")

def message : ExprError → String
  | .invalidCharacter text offset => s!"Invalid character '{text}' at offset {offset}"
  | .invalidNumber text offset => s!"Invalid number literal '{text}' at offset {offset}"
  | .emptyExpression => "Empty expression encountered"
  | .unexpectedEnd => "Unexpected end of expression"
  | .unexpectedToken text offset => s!"Unexpected token '{text}' at offset {offset}"
  | .unclosedBracket offset => s!"Unclosed left bracket at offset {offset}"
  | .unknownFunction name => s!"Tried to call builtin function '{name}', but it does not exist"
  | .arityMismatch name expected found =>
    s!"Tried to call builtin function '{name}' with {found} parameters, but it takes {expected}"
  | .undefinedVariables names => s!"Referenced undefined variables: {quoted names}"
  | .unresolvedBinding name missing =>
    s!"Binding '{name}' references undefined variables: {quoted missing}"
  | .nonIntegerRange kind => s!"Non integer value in range of {kind.title}"
  | .rangeTooLarge kind limit => s!"Range of {kind.title} has more than {limit} terms"

end ExprError

end DifferentialAnalyzer
