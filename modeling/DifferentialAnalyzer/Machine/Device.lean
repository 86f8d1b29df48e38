import DifferentialAnalyzer.Expr.Compiled
import DifferentialAnalyzer.Machine.Error
import DifferentialAnalyzer.Machine.Shaft

/-! The devices of a machine with their parameters and what they remember from tick to tick. -/

namespace DifferentialAnalyzer

/-- The curve that a function table follows. -/
inductive Curve where
  | constant (value : Float)
  | native (f : Float → Float)
  /-- For every position the argument is bound afresh. Bindings that are kept from one position to
  the next would give the same, as nothing but the argument is ever set in them. -/
  | expression (compiled : Compiled)

namespace Curve

/-- The name that a curve's expression has for the position on the table. -/
def argument : String := "x"

def ofCompiled (c : Compiled) : Curve :=
  match c.constant? with
  | some v => .constant v
  | none => .expression c

def eval : Curve → Float → Except ExprError Float
  | .constant v, _ => .ok v
  | .native f, x => .ok (f x)
  | .expression c, x => c.call [(Curve.argument, x)]

end Curve

/-- The disk is moved by the integrand's last rotation, and its position times the input's
rotation is the rotation of the output. -/
structure Integrator where
  input : ShaftId
  integrand : ShaftId
  output : ShaftId
  reversed : Bool
  initial : Float
  disk : Float
  /-- Where the disk stands if the running tick succeeds. -/
  staged : Option Float

/-- The input moves a pointer along the curve, and the output turns by the change in height. -/
structure FunctionTable where
  input : ShaftId
  output : ShaftId
  curve : Curve
  initial : Float
  position : Float
  /-- The height at the position, once it was needed. -/
  level : Option Float
  /-- Position and height if the running tick succeeds. -/
  staged : Option (Float × Float)

/-- Running totals of a shaft, the latest first. -/
abbrev History :=
  List Float

namespace History

def latest (h : History) : Float :=
  h.headD 0.0

def extend (h : History) (s : ShaftState) : History :=
  (h.latest + s.current) :: h

end History

/-- Draws one or two curves over the total rotation of a shaft. -/
structure OutputTable where
  x : ShaftId
  y1 : ShaftId
  y2 : Option ShaftId
  initialX : Float
  initialY1 : Float
  initialY2 : Float
  xs : History
  y1s : History
  y2s : Option History

/-- Shows the total rotation of a shaft. -/
structure Dial where
  shaft : ShaftId
  initial : Float
  reading : Float

inductive Device where
  | motor (shaft : ShaftId) (rotation : Float) (reversed : Bool)
  | gear (a b : ShaftId)
  /-- The second shaft turns `factor` times as far as the first. -/
  | gearPair (a b : ShaftId) (factor : Float)
  | crossConnect (horizontal vertical : ShaftId) (reversed : Bool)
  /-- The middle shaft turns by the sum of the others. -/
  | differential (a sum b : ShaftId)
  | multiplier (input output : ShaftId) (factor : Float)
  | integrator (i : Integrator)
  | functionTable (t : FunctionTable)
  | outputTable (t : OutputTable)
  | dial (d : Dial)

namespace OutputTable

def start (t : OutputTable) : OutputTable :=
  { t with xs := [t.initialX], y1s := [t.initialY1], y2s := t.y2.map fun _ => [t.initialY2] }

def ofShafts (x y1 : ShaftId) (y2 : Option ShaftId) (initialX initialY1 initialY2 : Float) :
    OutputTable :=
  start ⟨x, y1, y2, initialX, initialY1, initialY2, [], [], none⟩

/-- Adds one entry to each history after a tick. -/
def record (t : OutputTable) (shafts : Shafts) : OutputTable :=
  { t with
    xs := t.xs.extend (shafts.get t.x)
    y1s := t.y1s.extend (shafts.get t.y1)
    y2s := match t.y2, t.y2s with
      | some y2, some h => some (h.extend (shafts.get y2))
      | _, h => h }

end OutputTable

namespace Device

def ofIntegrator (input integrand output : ShaftId) (initial : Float) (reversed : Bool) :
    Device :=
  .integrator ⟨input, integrand, output, reversed, initial, initial, none⟩

def ofCurve (input output : ShaftId) (curve : Curve) (initial : Float) : Device :=
  .functionTable ⟨input, output, curve, initial, initial, none, none⟩

def ofDial (shaft : ShaftId) (initial : Float) : Device :=
  .dial ⟨shaft, initial, initial⟩

def kind : Device → DeviceKind
  | .motor .. => .motor
  | .gear .. => .gear
  | .gearPair .. => .gearPair
  | .crossConnect .. => .crossConnect
  | .differential .. => .differential
  | .multiplier .. => .multiplier
  | .integrator _ => .integrator
  | .functionTable _ => .functionTable
  | .outputTable _ => .outputTable
  | .dial _ => .dial

/-- The shafts of a device in the order of its kind's shape. -/
def connections : Device → List (ShaftId × PortRole)
  | .motor shaft _ _ => [(shaft, .output)]
  | .gear a b => [(a, .link), (b, .link)]
  | .gearPair a b _ => [(a, .link), (b, .link)]
  | .crossConnect horizontal vertical _ => [(horizontal, .link), (vertical, .link)]
  | .differential a sum b => [(a, .link), (sum, .link), (b, .link)]
  | .multiplier input output _ => [(input, .input), (output, .output)]
  | .integrator i => [(i.input, .input), (i.integrand, .delayed), (i.output, .output)]
  | .functionTable t => [(t.input, .input), (t.output, .output)]
  | .outputTable t =>
    [(t.x, .watch), (t.y1, .watch)] ++ (t.y2.toList.map fun y2 => (y2, PortRole.watch))
  | .dial d => [(d.shaft, .watch)]

def requireFinite (what : String) (x : Float) : Except MachineError Unit :=
  match DifferentialAnalyzer.requireFinite what x with
  | .ok _ => .ok ()
  | .error e => .error (.fault e)

/-- Refuses parameters that no tick could use. -/
def checkParameters : Device → Except MachineError Unit
  | .motor _ rotation _ => requireFinite "motor rotation" rotation
  | .gearPair _ _ factor => do
    requireFinite "gear pair factor" factor
    if factor == 0.0 then .error (.invalidArgument "gear pair factor must be nonzero") else .ok ()
  | .multiplier _ _ factor => requireFinite "multiplier factor" factor
  | .integrator i => requireFinite "integrator initial position" i.initial
  | .functionTable t => requireFinite "function table initial position" t.initial
  | _ => .ok ()

end Device

end DifferentialAnalyzer
