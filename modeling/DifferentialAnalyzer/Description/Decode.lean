import DifferentialAnalyzer.Description.Basic
import DifferentialAnalyzer.Document.Plain

/-! Reading a description off a tree. Every part says which forms it accepts; a tree in another form
holds no description. -/

namespace DifferentialAnalyzer

open Document

namespace Document

/-- How a value looks where one with a certain tag is asked for. Other tags have no influence there,
and a text that fills lines counts as one without quotes if it has that very tag. -/
def asked (tag : Tag) : Document → Document
  | .tagged t (.lines s) => if t = tag then .plain s else .text s
  | .tagged _ d => d
  | .reference _ d => asked tag d
  | d => d

/-- A whole number that a signed word of 64 bits holds. -/
def asInt (d : Document) : Option Int :=
  match d.asked .integer with
  | .number (.integer n) => if Word.holdsSigned n then some n else none
  | .plain s => (plainInteger s).filter Word.holdsSigned
  | _ => none

def asFloat (d : Document) : Option Float :=
  match d.asked .real with
  | .number n => some n.toFloat
  | .plain s => plainReal s
  | _ => none

def asBool (d : Document) : Option Bool :=
  match d.asked .bool with
  | .bool b => some b
  | .plain s => plainBool s
  | _ => none

/-- An empty value is a list without items. -/
def asList (d : Document) : Option (List Document) :=
  match d.untag with
  | .list items => some items
  | .plain "" => some []
  | _ => none

def asPair (read : Document → Option α) (d : Document) : Option (α × α) :=
  match d.untag with
  | .list [a, b] => do some (← read a, ← read b)
  | _ => none

/-- An empty value is none at all. What has the tag of one must be one. -/
def asOption (read : Document → Option α) : Document → Option (Option α)
  | .null => some none
  | .plain s => if s.isEmpty || isNullWord s then some none else (read (.plain s)).map some
  | .tagged .null (.plain s) => if isNullWord s then some none else none
  | .reference _ d => asOption read d
  | d => (read d).map some

/-- Values by name. -/
abbrev Fields :=
  List (String × Document)

/-- The value of a field. A field stands in a record once or not at all. -/
def Fields.get? (fields : Fields) (name : String) : Option (Option Document) :=
  match fields.filter fun field => field.1 == name with
  | [] => some none
  | [(_, d)] => some (some d)
  | _ => none

def Fields.required (fields : Fields) (name : String) (read : Document → Option α) :
    Option α := do
  read (← ← fields.get? name)

/-- A field that may be absent, but not empty. -/
def Fields.withDefault (fields : Fields) (name : String) (default : α)
    (read : Document → Option α) : Option α := do
  match ← fields.get? name with
  | none => some default
  | some d => read d

/-- A field that may be absent or empty. -/
def Fields.optional (fields : Fields) (name : String) (read : Document → Option α) :
    Option (Option α) :=
  fields.withDefault name none (asOption read)

/-- The fields of a record whose keys are all texts. -/
def Fields.ofEntries (entries : Entries) : Option Fields :=
  entries.mapM fun (key, d) => key.asText.map (·, d)

/-- The fields of a record, or the values in the order of the given names. An empty value is a
record without fields. -/
def asFields (names : List String) (d : Document) : Option Fields :=
  match d.untag with
  | .record entries => Fields.ofEntries entries
  | .list items => if items.length ≤ names.length then some (names.zip items) else none
  | .plain "" => some []
  | _ => none

end Document

def Cell.ofDocument (d : Document) : Option Cell := do
  let (x, y) ← asPair asInt d
  some ⟨x, y⟩

def ShaftSpan.ofDocument (d : Document) : Option ShaftSpan := do
  let fields ← d.asFields ["id", "start", "end"]
  let key ← fields.required "id" asInt
  let first ← fields.required "start" Cell.ofDocument
  let last ← fields.required "end" Cell.ofDocument
  some ⟨key, first, last⟩

def Factor.ofDocument (d : Document) : Option Factor :=
  match d.asFloat with
  | some x => some (.number x)
  | none => d.asText.map .formula

namespace Part

/-- The names of the kinds; a component may also give the place in this list. -/
def names : List String :=
  ["integrator", "differential", "multiplier", "functionTable", "motor", "outputTable",
    "crossConnect", "gearPair", "gear", "dial", "label"]

def kindOf (d : Document) : Option String :=
  match d with
  | .text name => if names.contains name then some name else none
  | .number (.integer n) => if 0 ≤ n then names[n.toNat]? else none
  | _ => none

def ofFields (fields : Fields) : Option Part := do
  match ← fields.required "type" kindOf with
  | "integrator" =>
    let input ← fields.required "variableOfIntegrationShaft" asInt
    let integrand ← fields.required "integrandShaft" asInt
    let output ← fields.required "outputShaft" asInt
    let reversed ← fields.withDefault "reversed" false asBool
    let initial ← fields.withDefault "initialPosition" 0.0 asFloat
    some (.integrator input integrand output reversed initial)
  | "differential" =>
    let a ← fields.optional "diffShaft1" asInt
    let sum ← fields.optional "sumShaft" asInt
    let b ← fields.optional "diffShaft2" asInt
    some (.differential a sum b)
  | "multiplier" =>
    let input ← fields.required "inputShaft" asInt
    let output ← fields.required "outputShaft" asInt
    let factor ← fields.withDefault "factor" (.number 1.0) Factor.ofDocument
    some (.multiplier input output factor)
  | "functionTable" =>
    let input ← fields.required "inputShaft" asInt
    let output ← fields.required "outputShaft" asInt
    let formula ← fields.required "fn" asText
    let xMin ← fields.optional "x_min" asFloat
    let xMax ← fields.optional "x_max" asFloat
    let yMin ← fields.optional "y_min" asFloat
    let yMax ← fields.optional "y_max" asFloat
    some (.functionTable input output formula xMin xMax yMin yMax)
  | "motor" =>
    let output ← fields.required "outputShaft" asInt
    let reversed ← fields.withDefault "reversed" false asBool
    let rotation ← fields.optional "rotation" asFloat
    some (.motor output reversed rotation)
  | "outputTable" =>
    let input ← fields.required "inputShaft" asInt
    let output1 ← fields.optional "outputShaft1" asInt
    let output2 ← fields.optional "outputShaft2" asInt
    let initial1 ← fields.withDefault "initialY1" 0.0 asFloat
    let initial2 ← fields.withDefault "initialY2" 0.0 asFloat
    some (.outputTable input output1 output2 initial1 initial2)
  | "crossConnect" =>
    let horizontal ← fields.required "horizontal" asInt
    let vertical ← fields.required "vertical" asInt
    let reversed ← fields.withDefault "reversed" false asBool
    some (.crossConnect horizontal vertical reversed)
  | "gearPair" =>
    let shaft1 ← fields.required "shaft1" asInt
    let shaft2 ← fields.required "shaft2" asInt
    let inputRatio ← fields.required "inputRatio" asFloat
    let outputRatio ← fields.required "outputRatio" asFloat
    some (.gearPair shaft1 shaft2 inputRatio outputRatio)
  | "gear" =>
    let horizontal ← fields.required "horizontal" asInt
    let vertical ← fields.required "vertical" asInt
    some (.gear horizontal vertical)
  | "dial" =>
    let input ← fields.required "inputShaft" asInt
    some (.dial input)
  | "label" =>
    let note ← fields.optional "text" asText
    some (.label note)
  | _ => none

end Part

namespace Component

/-- The fields that any component may have. -/
def placement : List String :=
  ["compID", "position"]

/-- Unlike elsewhere, fields without a use must have a meaning too. At most `depth` lists and
records may be inside each other in a field. -/
def ofDocument (depth : Nat) (d : Document) : Option Component := do
  match d.untag with
  | .record entries =>
    let fields ← Fields.ofEntries entries
    let id ← fields.optional "compID" asInt
    let position ← fields.optional "position" (asPair asFloat)
    let own := fields.filter fun field => !placement.contains field.1
    let part ← Part.ofFields (← own.mapM fun (name, d) => (d.resolved depth).map (name, ·))
    some ⟨id, position, part⟩
  | _ => none

end Component

def Settings.ofDocument (d : Document) : Option Settings := do
  let fields ← d.asFields ["custom_variables"]
  let customVariables ← fields.optional "custom_variables" asText
  some ⟨customVariables⟩

namespace Description

/-- A field of a component is inside the description, the list of components and the component. -/
def outerDepth : Nat := 3

def parts : List String :=
  ["shafts", "components", "settings"]

/-- References may be followed a hundred times as often as there are values in the file. -/
def repetitions : Nat := 100

/-- A description whose parts do not repeat values without end. -/
def isBounded (d : Document) : Bool :=
  let fields := ((d.asFields parts).getD []).filter fun field => parts.contains field.1
  let steps := fields.foldl (fun n field => n + field.2.steps) 0
  steps ≤ repetitions * d.size

/-- At most `depth` lists and records may be inside each other. -/
def ofDocument (depth : Nat) (d : Document) : Option Description := do
  let fields ← d.asFields parts
  let shafts ← fields.withDefault "shafts" [] fun d => do
    (← d.asList).mapM ShaftSpan.ofDocument
  let components ← fields.withDefault "components" [] fun d => do
    (← d.asList).mapM (Component.ofDocument (depth - outerDepth))
  let settings ← fields.withDefault "settings" ⟨none⟩ Settings.ofDocument
  some ⟨shafts, components, settings⟩

end Description

end DifferentialAnalyzer
