import DifferentialAnalyzer.Description.Error
import DifferentialAnalyzer.Text.Literal

/-! Why a command failed, and errors shown in full: the kind of each with all that it holds. -/

namespace DifferentialAnalyzer

namespace Dump

/-- A kind with named fields. -/
def fields (name : String) : List (String × String) → String
  | [] => name
  | entries =>
    name ++ " \x7b " ++ ", ".intercalate (entries.map fun (key, value) => key ++ ": " ++ value)
      ++ " \x7d"

/-- A kind around what it holds. -/
def wrap (name inner : String) : String :=
  name ++ "(" ++ inner ++ ")"

def list (items : List String) : String :=
  "[" ++ ", ".intercalate items ++ "]"

def id (i : Id) : String :=
  s!"Id({i.index})"

def quantifier : Quantifier → String
  | .sum => "Sum"
  | .product => "Product"

end Dump

def ExprError.dump (e : ExprError) : String :=
  Dump.fields e.label <| match e with
    | .invalidCharacter text offset | .invalidNumber text offset =>
      [("text", literal text), ("offset", toString offset)]
    | .emptyExpression | .unexpectedEnd => []
    | .unexpectedToken text offset => [("token", literal text), ("offset", toString offset)]
    | .unclosedBracket offset => [("offset", toString offset)]
    | .unknownFunction name => [("name", literal name)]
    | .arityMismatch name expected found =>
      [("name", literal name), ("expected", toString expected), ("found", toString found)]
    | .undefinedVariables names => [("names", Dump.list (names.map literal))]
    | .unresolvedBinding name missing =>
      [("name", literal name), ("missing", Dump.list (missing.map literal))]
    | .nonIntegerRange kind => [("kind", Dump.quantifier kind)]
    | .rangeTooLarge kind limit => [("kind", Dump.quantifier kind), ("limit", toString limit)]

def Fault.dump (e : Fault) : String :=
  Dump.fields e.label <| match e with
    | .nonFinite what value => [("what", literal what), ("value", displayFloat value)]
    | .invalidArgument what | .broken what => [("what", literal what)]
    | .outOfBounds what index len =>
      [("what", literal what), ("index", toString index), ("len", toString len)]

def TopologyError.dump (e : TopologyError) : String :=
  Dump.fields e.label <| match e with
    | .missingShaft port shaft | .misplacedPort port shaft =>
      [("port", Dump.id port), ("shaft", Dump.id shaft)]
    | .missingDevice port device => [("port", Dump.id port), ("device", Dump.id device)]
    | .portShape device kind found =>
      [("device", Dump.id device), ("kind", kind.name),
        ("found", Dump.list (found.map PortRole.name))]
    | .repeatedShaft device shaft => [("device", Dump.id device), ("shaft", Dump.id shaft)]
    | .conflictingDrivers shaft first second =>
      [("shaft", Dump.id shaft), ("first", Dump.id first), ("second", Dump.id second)]
    | .missingMotor => []
    | .multipleMotors first second => [("first", Dump.id first), ("second", Dump.id second)]
    | .foreignPort port expected actual =>
      [("port", Dump.id port), ("expected", Dump.id expected), ("actual", Dump.id actual)]
    | .duplicateKey key | .unknownKey key => [("key", toString key)]

def MachineError.dump : MachineError → String
  | .invalidArgument what => Dump.fields "InvalidArg" [("what", literal what)]
  | .duplicateResolution shaft device =>
    Dump.fields "DuplicateResolution" [("shaft", Dump.id shaft), ("device", Dump.id device)]
  | .expression device cause =>
    Dump.fields "Expression" [("device", Dump.id device), ("source", cause.dump)]
  | .topology cause => Dump.wrap "Topology" cause.dump
  | .fault cause => Dump.wrap "Core" cause.dump

def ValidationError.dump (e : ValidationError) : String :=
  Dump.fields e.label <| match e with
    | .duplicateId id context | .missingReference id context =>
      [("id", literal id), ("context", literal context)]
    | .invalidValue field value reason =>
      [("field", literal field), ("value", literal value), ("reason", literal reason)]

/-- What the system says of a file that is not there. -/
def missingFileDump : String :=
  Dump.fields "Os"
    [("code", "2"), ("kind", "NotFound"), ("message", literal "No such file or directory")]

def DescriptionError.dump : DescriptionError → String
  | .validation cause => Dump.wrap "Validation" cause.dump
  | .expression component cause =>
    Dump.fields "Expression" [("component", literal component), ("source", cause.dump)]
  | .customVariables cause => Dump.wrap "Variables" cause.dump
  | .topology cause => Dump.wrap "Topology" cause.dump
  | .machine cause => Dump.wrap "Simulation" cause.dump
  | .missingFile => Dump.wrap "Io" missingFileDump
  | .json => "Json"
  | .yaml => "Yaml"

inductive Failure where
  | expression (cause : ExprError)
  | description (cause : DescriptionError)
  | machine (cause : MachineError)
  | missingFile

def Failure.dump : Failure → String
  | .expression cause => cause.dump
  | .description cause => cause.dump
  | .machine cause => cause.dump
  | .missingFile => missingFileDump

end DifferentialAnalyzer
