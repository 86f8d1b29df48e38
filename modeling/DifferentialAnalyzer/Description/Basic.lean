import DifferentialAnalyzer.Topology.Basic
import DifferentialAnalyzer.Word

/-! Machines as a person writes them down: shafts by their place on a grid, and components that name
shafts by their ids. -/

namespace DifferentialAnalyzer

/-- The id that a description gives a shaft. -/
abbrev ShaftKey :=
  Int

structure Cell where
  x : Int
  y : Int
  deriving DecidableEq, Repr

/-- A shaft that fills the cells from `first` to `last`. -/
structure ShaftSpan where
  key : ShaftKey
  first : Cell
  last : Cell
  deriving DecidableEq, Repr

namespace ShaftSpan

/-- How many cells there are from `a` to `b`, if they can be counted. -/
def cells? (a b : Int) : Option Int :=
  if Word.holdsSigned (b - a) && Word.holdsSigned (b - a + 1) then some (b - a + 1) else none

/-- Width and height in cells. -/
def extent? (s : ShaftSpan) : Option (Int × Int) := do
  let width ← cells? s.first.x s.last.x
  let height ← cells? s.first.y s.last.y
  some (width, height)

end ShaftSpan

/-- A number, or an expression over the variables of the description. -/
inductive Factor where
  | number (x : Float)
  | formula (source : String)
  deriving BEq

/-- What a component is, with its shafts and parameters. -/
inductive Part where
  | integrator (input integrand output : ShaftKey) (reversed : Bool) (initial : Float)
  | differential (a sum b : Option ShaftKey)
  | multiplier (input output : ShaftKey) (factor : Factor)
  /-- The bounds say what a drawing shows. -/
  | functionTable (input output : ShaftKey) (formula : String)
      (xMin xMax yMin yMax : Option Float)
  | motor (output : ShaftKey) (reversed : Bool) (rotation : Option Float)
  | outputTable (input : ShaftKey) (output1 output2 : Option ShaftKey)
      (initial1 initial2 : Float)
  | crossConnect (horizontal vertical : ShaftKey) (reversed : Bool)
  | gearPair (shaft1 shaft2 : ShaftKey) (inputRatio outputRatio : Float)
  | gear (horizontal vertical : ShaftKey)
  | dial (input : ShaftKey)
  | label (note : Option String)
  deriving BEq

namespace Part

def name : Part → String
  | .integrator .. => "integrator"
  | .differential .. => "differential"
  | .multiplier .. => "multiplier"
  | .functionTable .. => "functionTable"
  | .motor .. => "motor"
  | .outputTable .. => "outputTable"
  | .crossConnect .. => "crossConnect"
  | .gearPair .. => "gearPair"
  | .gear .. => "gear"
  | .dial .. => "dial"
  | .label .. => "label"

/-- The fields of a component that may name a shaft. -/
def shaftFields : Part → List (String × Option ShaftKey)
  | .integrator input integrand output _ _ =>
    [("variableOfIntegrationShaft", some input), ("integrandShaft", some integrand),
      ("outputShaft", some output)]
  | .differential a sum b => [("diffShaft1", a), ("sumShaft", sum), ("diffShaft2", b)]
  | .multiplier input output _ => [("inputShaft", some input), ("outputShaft", some output)]
  | .functionTable input output .. =>
    [("inputShaft", some input), ("outputShaft", some output)]
  | .motor output _ _ => [("outputShaft", some output)]
  | .outputTable input output1 output2 _ _ =>
    [("inputShaft", some input), ("outputShaft1", output1), ("outputShaft2", output2)]
  | .crossConnect horizontal vertical _ | .gear horizontal vertical =>
    [("horizontal", some horizontal), ("vertical", some vertical)]
  | .gearPair shaft1 shaft2 _ _ => [("shaft1", some shaft1), ("shaft2", some shaft2)]
  | .dial input => [("inputShaft", some input)]
  | .label _ => []

/-- Every shaft that a component names, and the field that names it. -/
def shaftRefs (p : Part) : List (String × ShaftKey) :=
  p.shaftFields.filterMap fun (field, key) => key.map fun k => (field, k)

def isMotor : Part → Bool
  | .motor .. => true
  | _ => false

end Part

/-- A placed component. Id and position do not change the machine. -/
structure Component where
  id : Option Int
  position : Option (Float × Float)
  part : Part
  deriving BEq

/-- What messages call a component. -/
def Component.label (c : Component) : String :=
  match c.id with
  | some id => s!"{c.part.name} #{id}"
  | none => c.part.name

structure Settings where
  /-- A block of bindings that expressions may use. -/
  customVariables : Option String
  deriving BEq

namespace Settings

def isEmpty (s : Settings) : Bool :=
  s.customVariables.isNone

end Settings

structure Description where
  shafts : List ShaftSpan
  components : List Component
  settings : Settings
  deriving BEq

end DifferentialAnalyzer
