import DifferentialAnalyzer.Proofs.Machine.Flow
import DifferentialAnalyzer.Proofs.Machine.Schedule
import DifferentialAnalyzer.Proofs.Topology.Lookup

/-! Machines with every index checked. A checked computation gives `none` as soon as it uses a shaft
or a device that is not there, and a checked tick also when it would be cut short while
shafts wait. -/

namespace DifferentialAnalyzer

/-- Shafts as a device finds them; there need not be one for every id. -/
abbrev Look :=
  ShaftId → Option ShaftState

def Shafts.look (shafts : Shafts) : Look :=
  fun s => shafts[s.index]?

namespace Checked

section Device

variable (look : Look) (id : DeviceId)

def claimed (output : ShaftId) : Option (Except MachineError (Option Resolution)) := do
  let state ← look output
  return if state.drivenElsewhere id then .error (.duplicateResolution output id)
    else if state.ready then .ok (some (.unchanged output))
    else .ok none

def settled (linked : List ShaftId) : Option (Except MachineError Resolution) := do
  let states ← linked.mapM look
  return match linked.getLast? with
    | none => .ok .idle
    | some shaft =>
      if states.all (·.drivenElsewhere id) then .error (.duplicateResolution shaft id)
      else .ok .idle

def link (a b : ShaftId) (forward backward : Float → Float) :
    Option (Except MachineError Resolution) := do
  let x ← look a
  let y ← look b
  match x.resolved, y.resolved with
  | some v, none => return .ok (.write b (forward v))
  | none, some v => return .ok (.write a (backward v))
  | some _, some _ => settled look id [a, b]
  | none, none => return .ok .idle

def linkThree (a sum b : ShaftId) : Option (Except MachineError Resolution) := do
  let x ← look a
  let y ← look sum
  let z ← look b
  match x.resolved, y.resolved, z.resolved with
  | none, some y, some z => return .ok (.write a (y - z))
  | some x, none, some z => return .ok (.write sum (x + z))
  | some x, some y, none => return .ok (.write b (y - x))
  | some _, some _, some _ => settled look id [a, sum, b]
  | _, _, _ => return .ok .idle

/-- The rotation is looked up only if the output is free. -/
def drive (output : ShaftId) (value? : Option (Option Float)) :
    Option (Except MachineError Resolution) := do
  match ← claimed look id output with
  | .error e => return .error e
  | .ok (some done) => return .ok done
  | .ok none =>
    match ← value? with
    | some v => return .ok (.write output v)
    | none => return .ok .idle

def integrator (i : Integrator) : Option (Integrator × Except MachineError Resolution) := do
  match ← claimed look id i.output with
  | .error e => return (i, .error e)
  | .ok (some done) => return (i, .ok done)
  | .ok none =>
    match (← look i.input).resolved with
    | none => return (i, .ok .idle)
    | some turn =>
      let disk := i.disk + (← look i.integrand).current
      let value := disk * turn
      return ({ i with staged := some disk },
        .ok (.write i.output (if i.reversed then -value else value)))

def functionTable (t : FunctionTable) :
    Option (FunctionTable × Except MachineError Resolution) := do
  match ← claimed look id t.output with
  | .error e => return (t, .error e)
  | .ok (some done) => return (t, .ok done)
  | .ok none =>
    match (← look t.input).resolved with
    | none => return (t, .ok .idle)
    | some turn =>
      match t.height with
      | (t, .error e) => return (t, .error (.expression id e))
      | (t, .ok old) =>
        let x := t.position + turn
        match t.curve.eval x with
        | .error e => return (t, .error (.expression id e))
        | .ok new => return ({ t with staged := some (x, new) }, .ok (.write t.output (new - old)))

def resolve : Device → Option (Device × Except MachineError Resolution)
  | d@(.motor shaft rotation reversed) => do
    return (d, ← drive look id shaft (some (some (if reversed then -rotation else rotation))))
  | d@(.gear a b) => do return (d, ← link look id a b (fun v => v) fun v => v)
  | d@(.gearPair a b factor) => do return (d, ← link look id a b (· * factor) (· / factor))
  | d@(.crossConnect a b reversed) => do
    let sign : Float := if reversed then -1.0 else 1.0
    return (d, ← link look id a b (sign * ·) (sign * ·))
  | d@(.differential a sum b) => do return (d, ← linkThree look id a sum b)
  | d@(.multiplier input output factor) => do
    return (d, ← drive look id output ((look input).map fun x => x.resolved.map (· * factor)))
  | .integrator i => do
    let (i, answer) ← integrator look id i
    return (.integrator i, answer)
  | .functionTable t => do
    let (t, answer) ← functionTable look id t
    return (.functionTable t, answer)
  | d@(.outputTable _) => return (d, .ok .idle)
  | d@(.dial _) => return (d, .ok .idle)

/-- A second curve is recorded if there is one. -/
def recordSecond : Option ShaftId → Option History → Option (Option History)
  | some y2, some h => (look y2).map fun s => some (h.extend s)
  | _, h => some h

def record (t : OutputTable) : Option OutputTable := do
  let x ← look t.x
  let y1 ← look t.y1
  let y2s ← recordSecond look t.y2 t.y2s
  return { t with xs := t.xs.extend x, y1s := t.y1s.extend y1, y2s }

/-- Only the sinks look at shafts. -/
def commit : Device → Option Device
  | .outputTable t => (record look t).map .outputTable
  | .dial d => (look d.shaft).map fun s => .dial { d with reading := d.reading + s.current }
  | d => some (d.commit #[])

end Device

/-- Records what a device resolved. -/
def write (t : Tick) (id : DeviceId) : Resolution → Option (Tick × Option MachineError)
  | .write shaft value => do
    match (← t.shafts.look shaft).resolve? value (some id) with
    | none => return (t, some (.duplicateResolution shaft id))
    | some state =>
      return ({ t with shafts := t.shafts.set shaft state, waiting := shaft :: t.waiting }, none)
  | _ => some (t, none)

def ask (t : Tick) (id : DeviceId) : Option (Tick × Option MachineError) := do
  let (d, answer) ← resolve t.shafts.look id (← t.devices[id.index]?)
  let t := { t with devices := t.devices.setIfInBounds id.index d }
  match answer with
  | .error e => return (t, some e)
  | .ok resolution => write t id resolution

def askAll (t : Tick) : List DeviceId → Option (Tick × Option MachineError)
  | [] => some (t, none)
  | id :: rest => do
    match ← ask t id with
    | (t, none) => askAll t rest
    | failed => return failed

def drain (topology : Topology) : Nat → Tick → Option (Tick × Option MachineError)
  | 0, t => if t.waiting = [] then some (t, none) else none
  | count + 1, t =>
    match t.waiting with
    | [] => some (t, none)
    | s :: rest => do
      match ← askAll { t with waiting := rest } (← reactive topology s) with
      | (t, none) => drain topology count t
      | failed => return failed

def propagate (topology : Topology) (t : Tick) : Option (Tick × Option MachineError) := do
  match ← ask t topology.motor with
  | (t, none) => drain topology t.shafts.size t
  | failed => return failed

def conclude (s : Simulator) :
    Tick × Option MachineError → Option (Simulator × Option MachineError)
  | (t, none) => do
    let shafts : Shafts := t.shafts.map ShaftState.commit
    let devices ← t.devices.toList.mapM (commit shafts.look)
    return ({ s with devices := devices.toArray, shafts, tick := s.tick + 1 }, none)
  | failed => some (s.conclude failed)

def step (s : Simulator) : Option (Simulator × Option MachineError) := do
  conclude s (← propagate s.topology s.start)

def run : Nat → Simulator → Option (Simulator × Option MachineError)
  | 0, s => some (s, none)
  | count + 1, s => do
    match ← step s with
    | (s, none) => run count s
    | failed => return failed

def motorRotation (s : Simulator) : Option Float := do
  match ← s.devices[s.topology.motor.index]? with
  | .motor _ rotation _ => return rotation
  | _ => return 0.0

def setMotorRotation (s : Simulator) (rotation : Float) : Option (Except Fault Simulator) :=
  match requireFinite "motor rotation" rotation with
  | .error e => some (.error e)
  | .ok r => do
    let d ← s.devices[s.topology.motor.index]?
    let devices := s.devices.setIfInBounds s.topology.motor.index (Simulator.turned r d)
    return .ok { s with devices }

def perform (s : Simulator) : Operation → Option (Simulator × Response)
  | .step => do
    let (s, e) ← step s
    return (s, .ofError? e)
  | .run count => do
    let (s, e) ← run count s
    return (s, .ofError? e)
  | .setMotorRotation rotation => do
    match ← setMotorRotation s rotation with
    | .ok s => return (s, .done)
    | .error e => return (s, .refused e)
  | .reset => some (s.reset, .done)

section Covered

variable {look : Look} {id : DeviceId} {shafts : Shafts}

theorem claimed_eq {output : ShaftId} (h : look output = some (shafts.get output)) :
    claimed look id output = some (Device.claimed id output shafts) := by
  rw [claimed, h]
  rfl

theorem settled_eq {linked : List ShaftId} (h : ∀ s ∈ linked, look s = some (shafts.get s)) :
    settled look id linked = some (Device.settled id linked shafts) := by
  have hstates : linked.mapM look = some (linked.map shafts.get) := by
    rw [mapM_eq_some_iff, List.forall₂_map_right_iff, List.forall₂_same]
    exact h
  have hall : (linked.map shafts.get).all (·.drivenElsewhere id) =
      linked.all fun s => (shafts.get s).drivenElsewhere id := List.all_map
  rw [settled, hstates, Device.settled, ← hall]
  rfl

theorem link_eq {a b : ShaftId} {forward backward : Float → Float}
    (ha : look a = some (shafts.get a)) (hb : look b = some (shafts.get b)) :
    link look id a b forward backward = some (Device.link id shafts a b forward backward) := by
  have hs := @settled_eq look id shafts [a, b] (by simp [ha, hb])
  rw [link, ha, hb, Device.link]
  simp only [Option.bind_eq_bind, Option.bind_some, hs]
  cases (shafts.get a).resolved <;> cases (shafts.get b).resolved <;> rfl

theorem linkThree_eq {a sum b : ShaftId} (ha : look a = some (shafts.get a))
    (hsum : look sum = some (shafts.get sum)) (hb : look b = some (shafts.get b)) :
    linkThree look id a sum b = some (Device.linkThree id shafts a sum b) := by
  have hs := @settled_eq look id shafts [a, sum, b] (by simp [ha, hsum, hb])
  rw [linkThree, ha, hsum, hb, Device.linkThree]
  simp only [Option.bind_eq_bind, Option.bind_some, hs]
  cases (shafts.get a).resolved <;> cases (shafts.get sum).resolved <;>
    cases (shafts.get b).resolved <;> rfl

theorem drive_eq {output : ShaftId} {value? : Option (Option Float)} {value : Option Float}
    (h : look output = some (shafts.get output)) (hv : value? = some value) :
    drive look id output value? = some (Device.drive id shafts output value) := by
  unfold Device.drive
  rw [drive, claimed_eq h, hv]
  cases Device.claimed id output shafts with
  | error e => rfl
  | ok done => cases done <;> cases value <;> rfl

theorem integrator_eq {i : Integrator} (hin : look i.input = some (shafts.get i.input))
    (hd : look i.integrand = some (shafts.get i.integrand))
    (ho : look i.output = some (shafts.get i.output)) :
    integrator look id i = some (i.resolve id shafts) := by
  rw [integrator, claimed_eq ho, Integrator.resolve]
  cases Device.claimed id i.output shafts with
  | error e => rfl
  | ok done =>
    cases done with
    | some answer => rfl
    | none =>
      simp only [Option.bind_eq_bind, Option.bind_some, hin, hd]
      cases (shafts.get i.input).resolved <;> rfl

theorem functionTable_eq {t : FunctionTable} (hin : look t.input = some (shafts.get t.input))
    (ho : look t.output = some (shafts.get t.output)) :
    functionTable look id t = some (t.resolve id shafts) := by
  rw [functionTable, claimed_eq ho, FunctionTable.resolve]
  cases Device.claimed id t.output shafts with
  | error e => rfl
  | ok done =>
    cases done with
    | some answer => rfl
    | none =>
      simp only [Option.bind_eq_bind, Option.bind_some, hin]
      cases (shafts.get t.input).resolved with
      | none => rfl
      | some turn =>
        rcases t.height with ⟨t', _ | old⟩
        · rfl
        · dsimp only
          cases t'.curve.eval (t'.position + turn) <;> rfl

/-- A device looks only at the shafts that it is connected to. -/
theorem resolve_eq {d : Device} (h : ∀ c ∈ d.connections, look c.1 = some (shafts.get c.1)) :
    resolve look id d = some (d.resolve id shafts) := by
  cases d with
  | motor shaft rotation reversed =>
    rw [resolve, drive_eq (h _ List.mem_cons_self) rfl]
    rfl
  | gear a b =>
    simp only [Device.connections, List.forall_mem_cons] at h
    rw [resolve, link_eq h.1 h.2.1]
    rfl
  | gearPair a b factor =>
    simp only [Device.connections, List.forall_mem_cons] at h
    rw [resolve, link_eq h.1 h.2.1]
    rfl
  | crossConnect a b reversed =>
    simp only [Device.connections, List.forall_mem_cons] at h
    rw [resolve, link_eq h.1 h.2.1]
    rfl
  | differential a sum b =>
    simp only [Device.connections, List.forall_mem_cons] at h
    obtain ⟨ha, hsum, hb, -⟩ := h
    rw [resolve, linkThree_eq ha hsum hb]
    rfl
  | multiplier input output factor =>
    simp only [Device.connections, List.forall_mem_cons] at h
    obtain ⟨hin, ho, -⟩ := h
    rw [resolve, drive_eq ho (congrArg (Option.map _) hin)]
    rfl
  | integrator i =>
    simp only [Device.connections, List.forall_mem_cons] at h
    obtain ⟨hin, hd, ho, -⟩ := h
    rw [resolve, integrator_eq hin hd ho]
    rfl
  | functionTable t =>
    simp only [Device.connections, List.forall_mem_cons] at h
    obtain ⟨hin, ho, -⟩ := h
    rw [resolve, functionTable_eq hin ho]
    rfl
  | outputTable t => rfl
  | dial d => rfl

theorem record_eq {t : OutputTable} (hx : look t.x = some (shafts.get t.x))
    (hy1 : look t.y1 = some (shafts.get t.y1))
    (hy2 : ∀ y2, t.y2 = some y2 → look y2 = some (shafts.get y2)) :
    record look t = some (t.record shafts) := by
  rw [record, hx, hy1, OutputTable.record]
  cases hy : t.y2 with
  | none => rfl
  | some y2 =>
    cases t.y2s with
    | none => rfl
    | some h =>
      rw [recordSecond, hy2 y2 hy]
      rfl

theorem commit_eq {d : Device} (h : ∀ c ∈ d.connections, look c.1 = some (shafts.get c.1)) :
    commit look d = some (d.commit shafts) := by
  cases d with
  | outputTable t =>
    have hy2 : ∀ y2, t.y2 = some y2 → look y2 = some (shafts.get y2) := by
      intro y2 hy
      exact h (y2, .watch) (by simp [Device.connections, hy])
    rw [commit, record_eq (h (t.x, .watch) (by simp [Device.connections]))
      (h (t.y1, .watch) (by simp [Device.connections])) hy2]
    rfl
  | dial d =>
    rw [commit, h (d.shaft, .watch) (by simp [Device.connections])]
    rfl
  | _ => rfl

end Covered

end Checked

end DifferentialAnalyzer
