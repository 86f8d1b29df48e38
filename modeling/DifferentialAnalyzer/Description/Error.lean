import DifferentialAnalyzer.Machine.Error

/-! What can be wrong with a description, from its text to the machine it describes. -/

namespace DifferentialAnalyzer

inductive ValidationError where
  | duplicateId (id context : String)
  | missingReference (id context : String)
  | invalidValue (field value reason : String)
  deriving DecidableEq

namespace ValidationError

/-- The kind of error in one word. -/
def label : ValidationError → String
  | .duplicateId .. => "DuplicateId"
  | .missingReference .. => "MissingReference"
  | .invalidValue .. => "InvalidValue"

def message : ValidationError → String
  | .duplicateId id context => s!"Duplicate ID: {id} in {context}"
  | .missingReference id context => s!"Missing reference: {id} in {context}"
  | .invalidValue field value reason => s!"Invalid value: {field} = {value} ({reason})"

end ValidationError

inductive DescriptionError where
  | validation (cause : ValidationError)
  | expression (component : String) (cause : ExprError)
  | customVariables (cause : ExprError)
  | topology (cause : TopologyError)
  | machine (cause : MachineError)
  /-- There is no such file. -/
  | missingFile
  /-- The text is not JSON, or holds no description. -/
  | json
  /-- The text is not YAML, or holds no description. -/
  | yaml

namespace DescriptionError

/-- The kind of error, and behind a dot the kind of its cause. -/
def label : DescriptionError → String
  | .validation cause => "Validation." ++ cause.label
  | .expression _ cause => "Expression." ++ cause.label
  | .customVariables cause => "Variables." ++ cause.label
  | .topology cause => "Topology." ++ cause.label
  | .machine cause => "Simulation." ++ cause.label
  | .missingFile => "Io.NotFound"
  | .json => "Json"
  | .yaml => "Yaml"

/-- Texts and files are not described further. -/
def message? : DescriptionError → Option String
  | .validation cause => some ("Validation error: " ++ cause.message)
  | .expression component cause =>
    some (s!"Expression error in {component}: " ++ cause.message)
  | .customVariables cause => some ("Custom variables: " ++ cause.message)
  | .topology cause => some ("Topology error: " ++ cause.message)
  | .machine cause => some ("Simulation error: " ++ cause.message)
  | .missingFile | .json | .yaml => none

end DescriptionError

end DifferentialAnalyzer
