import DifferentialAnalyzer.Description.Validate
import DifferentialAnalyzer.Description.Variables
import DifferentialAnalyzer.Machine.Simulator
import DifferentialAnalyzer.Topology.Keys

/-! Building the machine that a description stands for: its shafts in order, then its components,
each wired to the shafts that it names. A slot that a description leaves open gets a shaft of its
own. -/

namespace DifferentialAnalyzer

/-- A machine that is being built, and the shafts that the description has ids for. -/
structure Wiring where
  assembly : Assembly
  keys : ShaftKeys

namespace Wiring

def empty : Wiring :=
  ⟨.empty, .empty⟩

def addShaft (w : Wiring) (s : ShaftSpan) (o : Orientation) : Except DescriptionError Wiring := do
  let (assembly, id) := w.assembly.addShaft s!"shaft {s.key}" o
  .ok ⟨assembly, ← (w.keys.insert s.key id).mapError .topology⟩

def addShafts (known : Orientations) (w : Wiring) :
    List ShaftSpan → Except DescriptionError Wiring
  | [] => .ok w
  | s :: rest => do
    addShafts known (← w.addShaft s ((known.lookup s.key).getD .point)) rest

def shaft (w : Wiring) (key : ShaftKey) : Except DescriptionError ShaftId :=
  (w.keys.get key).mapError .topology

/-- The shaft of a slot that may be open. -/
def slot (w : Wiring) (owner : String) :
    Option ShaftKey → Except DescriptionError (Wiring × ShaftId)
  | some key => do .ok (w, ← w.shaft key)
  | none =>
    let (assembly, id) := w.assembly.addShaft s!"{owner} (floating)" .point
    .ok (⟨assembly, w.keys.insertAnonymous id⟩, id)

def addDevice (w : Wiring) (name : String) (d : Device) : Wiring :=
  ⟨(w.assembly.addDevice name d).1, w.keys⟩

end Wiring

/-- The value of a factor, which may depend on variables only. -/
def Factor.value (f : Factor) (owner : String) (scope : Bindings) :
    Except DescriptionError Float :=
  match f with
  | .number x => .ok x
  | .formula source => do
    let c ← (compileText source scope).mapError (.expression owner)
    match c.constant? with
    | some x => .ok x
    | none => .error (.expression owner (.undefinedVariables c.free))

/-- The curve of a function table, which may depend on variables and the place on the table. -/
def Curve.ofFormula (source owner : String) (scope : Bindings) :
    Except DescriptionError Curve := do
  let c ← (compileText source scope).mapError (.expression owner)
  match c.free.filter (· != Curve.argument) with
  | [] => .ok (.ofCompiled c)
  | names => .error (.expression owner (.undefinedVariables names))

/-- What a machine is built with apart from its description. -/
structure BuildOptions where
  /-- How far the motor turns in a tick, whatever the description says. -/
  motorRotation : Option Float

namespace BuildOptions

def standard : BuildOptions :=
  ⟨none⟩

/-- A motor of which nothing is said turns once in a tick. -/
def rotation (o : BuildOptions) (described : Option Float) : Float :=
  (o.motorRotation.or described).getD 1.0

end BuildOptions

namespace Wiring

/-- Adds the device of a component; labels have none. -/
def addPart (w : Wiring) (label : String) (scope : Bindings) (options : BuildOptions) :
    Part → Except DescriptionError Wiring
  | .integrator input integrand output reversed initial => do
    let input ← w.shaft input
    let integrand ← w.shaft integrand
    let output ← w.shaft output
    .ok (w.addDevice label (.ofIntegrator input integrand output initial reversed))
  | .differential a sum b => do
    let (w, a) ← w.slot label a
    let (w, sum) ← w.slot label sum
    let (w, b) ← w.slot label b
    .ok (w.addDevice label (.differential a sum b))
  | .multiplier input output factor => do
    let input ← w.shaft input
    let output ← w.shaft output
    .ok (w.addDevice label (.multiplier input output (← factor.value label scope)))
  | .functionTable input output formula .. => do
    let input ← w.shaft input
    let output ← w.shaft output
    let curve ← Curve.ofFormula formula label scope
    .ok (w.addDevice label (.ofCurve input output curve 0.0))
  | .motor output reversed rotation => do
    .ok (w.addDevice label (.motor (← w.shaft output) (options.rotation rotation) reversed))
  | .outputTable input output1 output2 initial1 initial2 => do
    let x ← w.shaft input
    match output1, output2 with
    | some y1, some y2 =>
      let y1 ← w.shaft y1
      let y2 ← w.shaft y2
      .ok (w.addDevice label (.outputTable (.ofShafts x y1 (some y2) 0.0 initial1 initial2)))
    | some y1, none =>
      let y1 ← w.shaft y1
      .ok (w.addDevice label (.outputTable (.ofShafts x y1 none 0.0 initial1 0.0)))
    | none, some y1 =>
      let y1 ← w.shaft y1
      .ok (w.addDevice label (.outputTable (.ofShafts x y1 none 0.0 initial2 0.0)))
    | none, none => .error (.validation (.missingReference "outputShaft1" label))
  | .crossConnect horizontal vertical reversed => do
    let horizontal ← w.shaft horizontal
    let vertical ← w.shaft vertical
    .ok (w.addDevice label (.crossConnect horizontal vertical reversed))
  | .gearPair shaft1 shaft2 inputRatio outputRatio => do
    let shaft1 ← w.shaft shaft1
    let shaft2 ← w.shaft shaft2
    .ok (w.addDevice label (.gearPair shaft1 shaft2 (outputRatio / inputRatio)))
  | .gear horizontal vertical => do
    let horizontal ← w.shaft horizontal
    let vertical ← w.shaft vertical
    .ok (w.addDevice label (.gear horizontal vertical))
  | .dial input => do
    .ok (w.addDevice label (.ofDial (← w.shaft input) 0.0))
  | .label _ => .ok w

def addComponents (scope : Bindings) (options : BuildOptions) (w : Wiring) :
    List Component → Except DescriptionError Wiring
  | [] => .ok w
  | c :: rest => do
    addComponents scope options (← w.addPart c.label scope options c.part) rest

end Wiring

namespace Description

/-- The machine of a valid description. -/
def build (d : Description) (options : BuildOptions) : Except DescriptionError Simulator := do
  d.validate.mapError .validation
  let chain ← d.settings.resolve
  let known ← d.orientations.mapError .validation
  let w ← Wiring.addShafts known .empty d.shafts
  let w ← Wiring.addComponents chain.toBindings options w d.components
  w.assembly.build.mapError .machine

end Description

end DifferentialAnalyzer
