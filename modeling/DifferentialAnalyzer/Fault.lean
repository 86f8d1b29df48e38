import DifferentialAnalyzer.Decimal.Text

/-! Faults that any part of the machine can report. -/

namespace DifferentialAnalyzer

inductive Fault where
  | nonFinite (what : String) (value : Float)
  | invalidArgument (what : String)
  | outOfBounds (what : String) (index len : Nat)
  | broken (what : String)

namespace Fault

/-- The kind of fault in one word. -/
def label : Fault → String
  | .nonFinite .. => "NonFinite"
  | .invalidArgument .. => "InvalidArg"
  | .outOfBounds .. => "IndexOob"
  | .broken .. => "Invariant"

def message : Fault → String
  | .nonFinite what value => s!"Non-finite numeric value for {what}: " ++ displayFloat value
  | .invalidArgument what => s!"Invalid argument: {what}"
  | .outOfBounds what index len =>
    s!"Index out of bounds: {what} (index={index}, len={len})"
  | .broken what => s!"Invariant violated: {what}"

end Fault

/-- Refuses infinities and what is not a number. -/
def requireFinite (what : String) (x : Float) : Except Fault Float :=
  if x.isFinite then .ok x else .error (.nonFinite what x)

end DifferentialAnalyzer
