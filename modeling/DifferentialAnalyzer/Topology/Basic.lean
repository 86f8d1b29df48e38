/-! Shafts, the devices attached to them, and the ports where a device meets a shaft. -/

namespace DifferentialAnalyzer

/-- The place of a shaft, device or port among its kind, counted from zero. Places have no bound
here. Ids counted in words of 32 bits are the same for the first `Id.maxIndex + 1` of each kind. -/
structure Id where
  index : Nat
  deriving DecidableEq, Repr

abbrev ShaftId := Id

abbrev DeviceId := Id

abbrev PortId := Id

namespace Id

/-- The largest index that a written id can have. -/
def maxIndex : Nat := 4294967294

/-- The id with a written index; larger ones are taken for the largest. -/
def ofIndex (n : Nat) : Id :=
  ⟨min n maxIndex⟩

end Id

/-- The way a shaft lies on the grid. -/
inductive Orientation where
  | horizontal
  | vertical
  /-- A single cell, which fits either way. -/
  | point
  deriving DecidableEq, Repr

namespace Orientation

/-- A span may be longer than one cell in one direction only. -/
def ofExtent? (width height : Int) : Option Orientation :=
  match decide (1 < width), decide (1 < height) with
  | true, true => none
  | true, false => some .horizontal
  | false, true => some .vertical
  | false, false => some .point

def fits (o wanted : Orientation) : Bool :=
  o = .point || wanted = .point || o = wanted

end Orientation

/-- What a device does with the shaft at a port. -/
inductive PortRole where
  /-- Read in the tick that is running. -/
  | input
  /-- Written; at most one for a shaft. -/
  | output
  /-- Read or written, whichever side is resolved first. -/
  | link
  /-- Read as the last tick left it. -/
  | delayed
  /-- Observed when the tick is over. -/
  | watch
  deriving DecidableEq, Repr

namespace PortRole

/-- The device is asked when the shaft at such a port is resolved. -/
def reacts : PortRole → Bool
  | .input | .link => true
  | _ => false

/-- The port takes part in resolving shafts. -/
def resolves : PortRole → Bool
  | .input | .output | .link => true
  | _ => false

def name : PortRole → String
  | .input => "Input"
  | .output => "Output"
  | .link => "Link"
  | .delayed => "Delayed"
  | .watch => "Watch"

end PortRole

inductive DeviceKind where
  | motor
  | gear
  | gearPair
  | crossConnect
  | differential
  | multiplier
  | integrator
  | functionTable
  | outputTable
  | dial
  deriving DecidableEq, Repr

namespace DeviceKind

/-- The ports of a device in their order. An output table may be without the last one. -/
def portShape : DeviceKind → List PortRole
  | .motor => [.output]
  | .gear | .gearPair | .crossConnect => [.link, .link]
  | .differential => [.link, .link, .link]
  | .multiplier | .functionTable => [.input, .output]
  | .integrator => [.input, .delayed, .output]
  | .outputTable => [.watch, .watch, .watch]
  | .dial => [.watch]

/-- Devices that only observe. -/
def isSink : DeviceKind → Bool
  | .outputTable | .dial => true
  | _ => false

/-- The ports are those of the kind. -/
def accepts (kind : DeviceKind) (roles : List PortRole) : Bool :=
  match kind with
  | .outputTable => 2 ≤ roles.length && roles.isPrefixOf kind.portShape
  | _ => roles = kind.portShape

def name : DeviceKind → String
  | .motor => "Motor"
  | .gear => "Gear"
  | .gearPair => "GearPair"
  | .crossConnect => "CrossConnect"
  | .differential => "Differential"
  | .multiplier => "Multiplier"
  | .integrator => "Integrator"
  | .functionTable => "FunctionTable"
  | .outputTable => "OutputTable"
  | .dial => "Dial"

end DeviceKind

namespace Topology

structure Shaft where
  name : String
  orientation : Orientation
  deriving DecidableEq, Repr

/-- Where a device meets a shaft. A port does not hold its own id, which is its place among the
ports. Ids held beside them would be given out in the same order, and so be the same as far as ids
go. -/
structure Port where
  device : DeviceId
  shaft : ShaftId
  role : PortRole
  deriving DecidableEq, Repr

structure Node where
  name : String
  kind : DeviceKind
  /-- In the order of the kind's shape. -/
  ports : List PortId
  deriving DecidableEq, Repr

end Topology

end DifferentialAnalyzer
