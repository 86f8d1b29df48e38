import DifferentialAnalyzer.Machine.Device

/-! What a device does in a tick. Asked during the tick it resolves one shaft from those that are
resolved already, and it never touches a resolved one: finding its output, or all the shafts that it
links, resolved by other devices means that two devices drive one shaft. -/

namespace DifferentialAnalyzer

inductive Resolution where
  /-- Too little is resolved, or nothing is left to do. -/
  | idle
  | write (shaft : ShaftId) (value : Float)
  /-- The output has its rotation already. -/
  | unchanged (shaft : ShaftId)

namespace Device

/-- The answer that the state of a fixed output settles before anything else is looked at. -/
def claimed (id : DeviceId) (output : ShaftId) (shafts : Shafts) :
    Except MachineError (Option Resolution) :=
  if (shafts.get output).drivenElsewhere id then .error (.duplicateResolution output id)
  else if (shafts.get output).ready then .ok (some (.unchanged output))
  else .ok none

/-- All linked shafts are resolved. If the device resolved none of them, the last has two
drivers. -/
def settled (id : DeviceId) (linked : List ShaftId) (shafts : Shafts) :
    Except MachineError Resolution :=
  match linked.getLast? with
  | none => .ok .idle
  | some shaft =>
    if linked.all fun s => (shafts.get s).drivenElsewhere id then
      .error (.duplicateResolution shaft id)
    else .ok .idle

/-- Two shafts that turn together, whichever of them is resolved first. -/
def link (id : DeviceId) (shafts : Shafts) (a b : ShaftId) (forward backward : Float → Float) :
    Except MachineError Resolution :=
  match (shafts.get a).resolved, (shafts.get b).resolved with
  | some v, none => .ok (.write b (forward v))
  | none, some v => .ok (.write a (backward v))
  | some _, some _ => settled id [a, b] shafts
  | none, none => .ok .idle

def linkThree (id : DeviceId) (shafts : Shafts) (a sum b : ShaftId) :
    Except MachineError Resolution :=
  match (shafts.get a).resolved, (shafts.get sum).resolved, (shafts.get b).resolved with
  | none, some y, some z => .ok (.write a (y - z))
  | some x, none, some z => .ok (.write sum (x + z))
  | some x, some y, none => .ok (.write b (y - x))
  | some _, some _, some _ => settled id [a, sum, b] shafts
  | _, _, _ => .ok .idle

/-- A fixed output with the rotation `value?`, once there is one. -/
def drive (id : DeviceId) (shafts : Shafts) (output : ShaftId) (value? : Option Float) :
    Except MachineError Resolution := do
  match ← claimed id output shafts with
  | some done => .ok done
  | none =>
    match value? with
    | some v => .ok (.write output v)
    | none => .ok .idle

end Device

/-- The integrator may stage a new place for its disk. -/
def Integrator.resolve (i : Integrator) (id : DeviceId) (shafts : Shafts) :
    Integrator × Except MachineError Resolution :=
  match Device.claimed id i.output shafts with
  | .error e => (i, .error e)
  | .ok (some done) => (i, .ok done)
  | .ok none =>
    match (shafts.get i.input).resolved with
    | none => (i, .ok .idle)
    | some turn =>
      let disk := i.disk + (shafts.get i.integrand).current
      let value := disk * turn
      ({ i with staged := some disk },
        .ok (.write i.output (if i.reversed then -value else value)))

namespace FunctionTable

/-- The height at the position, looked up on the curve if it is not known yet. -/
def height (t : FunctionTable) : FunctionTable × Except ExprError Float :=
  match t.level with
  | some y => (t, .ok y)
  | none =>
    match t.curve.eval t.position with
    | .ok y => ({ t with level := some y }, .ok y)
    | .error e => (t, .error e)

/-- The table may stage a new position. -/
def resolve (t : FunctionTable) (id : DeviceId) (shafts : Shafts) :
    FunctionTable × Except MachineError Resolution :=
  match Device.claimed id t.output shafts with
  | .error e => (t, .error e)
  | .ok (some done) => (t, .ok done)
  | .ok none =>
    match (shafts.get t.input).resolved with
    | none => (t, .ok .idle)
    | some turn =>
      match t.height with
      | (t, .error e) => (t, .error (.expression id e))
      | (t, .ok old) =>
        let x := t.position + turn
        match t.curve.eval x with
        | .error e => (t, .error (.expression id e))
        | .ok new => ({ t with staged := some (x, new) }, .ok (.write t.output (new - old)))

end FunctionTable

namespace Device

/-- Asks a device for a shaft to resolve. -/
def resolve (id : DeviceId) (shafts : Shafts) : Device → Device × Except MachineError Resolution
  | d@(.motor shaft rotation reversed) =>
    (d, drive id shafts shaft (some (if reversed then -rotation else rotation)))
  | d@(.gear a b) => (d, link id shafts a b (fun v => v) fun v => v)
  | d@(.gearPair a b factor) => (d, link id shafts a b (· * factor) (· / factor))
  | d@(.crossConnect a b reversed) =>
    let sign : Float := if reversed then -1.0 else 1.0
    (d, link id shafts a b (sign * ·) (sign * ·))
  | d@(.differential a sum b) => (d, linkThree id shafts a sum b)
  | d@(.multiplier input output factor) =>
    (d, drive id shafts output ((shafts.get input).resolved.map (· * factor)))
  | .integrator i =>
    let (i, answer) := i.resolve id shafts
    (.integrator i, answer)
  | .functionTable t =>
    let (t, answer) := t.resolve id shafts
    (.functionTable t, answer)
  | d@(.outputTable _) => (d, .ok .idle)
  | d@(.dial _) => (d, .ok .idle)

/-- Adopts what a successful tick staged; the sinks read the committed shafts. -/
def commit (shafts : Shafts) : Device → Device
  | .integrator i => .integrator { i with disk := i.staged.getD i.disk, staged := none }
  | .functionTable t =>
    match t.staged with
    | some (x, y) => .functionTable { t with position := x, level := some y, staged := none }
    | none => .functionTable t
  | .outputTable t => .outputTable (t.record shafts)
  | .dial d => .dial { d with reading := d.reading + (shafts.get d.shaft).current }
  | d => d

/-- Forgets what a failed tick staged. -/
def rollback : Device → Device
  | .integrator i => .integrator { i with staged := none }
  | .functionTable t => .functionTable { t with staged := none }
  | d => d

/-- Goes back to the initial position. -/
def reset : Device → Device
  | .integrator i => .integrator { i with disk := i.initial, staged := none }
  | .functionTable t =>
    .functionTable { t with position := t.initial, level := none, staged := none }
  | .outputTable t => .outputTable t.start
  | .dial d => .dial { d with reading := d.initial }
  | d => d

end Device

end DifferentialAnalyzer
