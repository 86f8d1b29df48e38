import DifferentialAnalyzer.Description.Decode
import DifferentialAnalyzer.Description.Encode
import DifferentialAnalyzer.Description.Validate
import DifferentialAnalyzer.Document.Yaml

/-! Descriptions in files. What is loaded or saved is valid. -/

namespace DifferentialAnalyzer.Description

/-- How many lists and records may be inside each other in a file. -/
def jsonDepth : Nat := 127

def yamlDepth : Nat := 128

/-- A description that need not be valid. -/
def parseJson (text : String) : Except DescriptionError Description :=
  match (Document.ofJson text).bind (ofDocument jsonDepth) with
  | some d => .ok d
  | none => .error .json

def parseYaml (text : String) : Except DescriptionError Description :=
  match ((Document.ofYaml text).filter isBounded).bind (ofDocument yamlDepth) with
  | some d => .ok d
  | none => .error .yaml

def requireValid (d : Description) : Except DescriptionError Description := do
  d.validate.mapError .validation
  .ok d

def ofJson (text : String) : Except DescriptionError Description := do
  requireValid (← parseJson text)

def ofYaml (text : String) : Except DescriptionError Description := do
  requireValid (← parseYaml text)

/-- What stands behind the last dot of a file's name, unless the name starts with it. -/
def extension (path : String) : Option String :=
  let name := (path.toList.reverse.takeWhile (· != '/')).reverse
  match name.reverse.span (· != '.') with
  | (_, []) | (_, ['.']) => none
  | (tail, _) => some (String.ofList tail.reverse)

/-- The extension of the file says how its text is read. Without a text there is no file. -/
def load (path : String) (text : Option String) : Except DescriptionError Description :=
  match text with
  | none => .error .missingFile
  | some text =>
    match extension path with
    | some "yaml" | some "yml" => ofYaml text
    | _ => ofJson text

def toJson (d : Description) : Except DescriptionError String := do
  .ok (← requireValid d).toDocument.toJson

def toYaml (d : Description) : Except DescriptionError String := do
  .ok (← requireValid d).toDocument.toYaml

end DifferentialAnalyzer.Description
