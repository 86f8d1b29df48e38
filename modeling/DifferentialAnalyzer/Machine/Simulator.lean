import DifferentialAnalyzer.Machine.Resolution
import DifferentialAnalyzer.Topology.Graph

/-! Machines that run in ticks. A tick starts at the motor: every shaft that is resolved has its
devices asked, and what they resolve waits to be taken up in turn. When no shaft is waiting all
shafts are committed and the sinks record them. An error rolls the tick back. -/

namespace DifferentialAnalyzer

/-- A tick while it runs. -/
structure Tick where
  devices : Array Device
  shafts : Shafts
  /-- Resolved shafts whose devices are still to be asked, the latest first. -/
  waiting : List ShaftId

namespace Tick

/-- Records what a device resolved. -/
def apply (t : Tick) (id : DeviceId) : Resolution → Tick × Option MachineError
  | .write shaft value =>
    match (t.shafts.get shaft).resolve? value (some id) with
    | none => (t, some (.duplicateResolution shaft id))
    | some state =>
      ({ t with shafts := t.shafts.set shaft state, waiting := shaft :: t.waiting }, none)
  | _ => (t, none)

/-- Asks one device. -/
def ask (t : Tick) (id : DeviceId) : Tick × Option MachineError :=
  match t.devices[id.index]? with
  | none => (t, none)
  | some d =>
    let (d, answer) := d.resolve id t.shafts
    let t := { t with devices := t.devices.setIfInBounds id.index d }
    match answer with
    | .error e => (t, some e)
    | .ok resolution => t.apply id resolution

/-- Asks devices in order up to the first error. -/
def askAll (t : Tick) : List DeviceId → Tick × Option MachineError
  | [] => (t, none)
  | id :: rest =>
    match t.ask id with
    | (t, none) => t.askAll rest
    | failed => failed

/-- Takes up waiting shafts, at most `count` of them. -/
def drain (topology : Topology) : Nat → Tick → Tick × Option MachineError
  | 0, t => (t, none)
  | count + 1, t =>
    match t.waiting with
    | [] => (t, none)
    | s :: rest =>
      match askAll { t with waiting := rest } (topology.reactive s) with
      | (t, none) => drain topology count t
      | failed => failed

/-- Resolves all shafts that the motor can reach. A shaft waits only once, so that as many as there
are suffice. -/
def propagate (topology : Topology) (t : Tick) : Tick × Option MachineError :=
  match t.ask topology.motor with
  | (t, none) => drain topology t.shafts.size t
  | failed => failed

end Tick

structure Simulator where
  topology : Topology
  /-- In the order of the topology. -/
  devices : Array Device
  shafts : Shafts
  tick : Nat

namespace Simulator

/-- A machine at rest. -/
def ofTopology (topology : Topology) (devices : Array Device) : Simulator :=
  ⟨topology, devices, Array.replicate topology.shafts.size .rest, 0⟩

/-- Runs one tick. After an error shafts and devices are where the last tick left them. -/
def step (s : Simulator) : Simulator × Option MachineError :=
  match Tick.propagate s.topology ⟨s.devices, s.shafts, []⟩ with
  | (t, none) =>
    let shafts := t.shafts.map ShaftState.commit
    ({ s with devices := t.devices.map (Device.commit shafts), shafts, tick := s.tick + 1 }, none)
  | (t, some e) =>
    ({ s with
      devices := t.devices.map Device.rollback
      shafts := t.shafts.map ShaftState.rollback }, some e)

/-- Runs up to `count` ticks, until one fails. -/
def run : Nat → Simulator → Simulator × Option MachineError
  | 0, s => (s, none)
  | count + 1, s =>
    match s.step with
    | (s, none) => run count s
    | failed => failed

def motorRotation (s : Simulator) : Float :=
  match s.devices[s.topology.motor.index]? with
  | some (.motor _ rotation _) => rotation
  | _ => 0.0

/-- Changes how far the motor turns in every further tick. -/
def setMotorRotation (s : Simulator) (rotation : Float) : Except Fault Simulator := do
  let rotation ← requireFinite "motor rotation" rotation
  return { s with devices := s.devices.modify s.topology.motor.index fun
    | .motor shaft _ reversed => .motor shaft rotation reversed
    | d => d }

/-- Goes back to the start; the motor keeps its rotation. -/
def reset (s : Simulator) : Simulator :=
  { s with
    devices := s.devices.map Device.reset
    shafts := Array.replicate s.shafts.size .rest
    tick := 0 }

def outputTables (s : Simulator) : List OutputTable :=
  s.devices.toList.filterMap fun
    | .outputTable t => some t
    | _ => none

def outputTable (s : Simulator) (index : Nat) : Except Fault OutputTable :=
  match s.outputTables[index]? with
  | some t => .ok t
  | none => .error (.outOfBounds "output table" index s.outputTables.length)

def dials (s : Simulator) : List Dial :=
  s.devices.toList.filterMap fun
    | .dial d => some d
    | _ => none

end Simulator

/-- A machine that is being put together. -/
structure Assembly where
  draft : Topology.Draft
  devices : Array Device

namespace Assembly

def empty : Assembly :=
  ⟨.empty, #[]⟩

def addShaft (a : Assembly) (name : String) (orientation : Orientation) : Assembly × ShaftId :=
  let (draft, id) := a.draft.addShaft name orientation
  ({ a with draft }, id)

def addDevice (a : Assembly) (name : String) (device : Device) : Assembly × DeviceId :=
  let (draft, id) := a.draft.addDevice name device.kind device.connections
  ({ draft, devices := a.devices.push device }, id)

def checkParameters : List Device → Except MachineError Unit
  | [] => .ok ()
  | d :: rest => do
    d.checkParameters
    checkParameters rest

/-- Parameters are checked before the wiring. -/
def build (a : Assembly) : Except MachineError Simulator := do
  checkParameters a.devices.toList
  match a.draft.build with
  | .error e => .error (.topology e)
  | .ok topology => .ok (.ofTopology topology a.devices)

end Assembly

end DifferentialAnalyzer
