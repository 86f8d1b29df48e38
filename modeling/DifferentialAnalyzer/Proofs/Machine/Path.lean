import DifferentialAnalyzer.Machine.Simulator
import DifferentialAnalyzer.Proofs.Topology.Fitting

/-! The ways in which rotations pass through a device, whatever it does with them. -/

namespace DifferentialAnalyzer

namespace Shafts

def Ready (shafts : Shafts) (s : ShaftId) : Prop :=
  (shafts.get s).ready = true

instance (shafts : Shafts) (s : ShaftId) : Decidable (shafts.Ready s) :=
  inferInstanceAs (Decidable (_ = true))

def DrivenBy (shafts : Shafts) (s : ShaftId) (id : DeviceId) : Prop :=
  shafts.Ready s ∧ (shafts.get s).driver = some id

/-- Every resolved shaft was resolved by a device. -/
def Attributed (shafts : Shafts) : Prop :=
  ∀ s, shafts.Ready s → ∃ id, shafts.DrivenBy s id

end Shafts

/-- A way through a device: once all of `needs` are resolved, `target` follows. -/
structure Path where
  needs : List ShaftId
  target : ShaftId

def Path.Open (p : Path) (known : ShaftId → Prop) : Prop :=
  ∀ n ∈ p.needs, known n

/-- The level of a table, if it is recorded, is the height at its position. -/
def FunctionTable.LevelSound (t : FunctionTable) : Prop :=
  ∀ y, t.level = some y → t.curve.eval t.position = .ok y

namespace Device

def fitting (d : Device) : Topology.Fitting :=
  ⟨d.kind, d.connections⟩

def paths : Device → List Path
  | .motor shaft _ _ => [⟨[], shaft⟩]
  | .gear a b => [⟨[a], b⟩, ⟨[b], a⟩]
  | .gearPair a b _ => [⟨[a], b⟩, ⟨[b], a⟩]
  | .crossConnect a b _ => [⟨[a], b⟩, ⟨[b], a⟩]
  | .differential a sum b => [⟨[sum, b], a⟩, ⟨[a, b], sum⟩, ⟨[a, sum], b⟩]
  | .multiplier input output _ => [⟨[input], output⟩]
  | .integrator i => [⟨[i.input], i.output⟩]
  | .functionTable t => [⟨[t.input], t.output⟩]
  | .outputTable _ => []
  | .dial _ => []

/-- One of the paths through the device is open. -/
def Enabled (d : Device) (known : ShaftId → Prop) : Prop :=
  ∃ p ∈ d.paths, p.Open known

/-- The rotation that the device gives to a target of its paths. -/
def rotation (shafts : Shafts) (target : ShaftId) : Device → Except ExprError Float
  | .motor _ rotation reversed => .ok (if reversed then -rotation else rotation)
  | .gear a b => .ok (if target = b then (shafts.get a).next else (shafts.get b).next)
  | .gearPair a b factor =>
    .ok (if target = b then (shafts.get a).next * factor else (shafts.get b).next / factor)
  | .crossConnect a b reversed =>
    let sign : Float := if reversed then -1.0 else 1.0
    .ok (if target = b then sign * (shafts.get a).next else sign * (shafts.get b).next)
  | .differential a sum b =>
    .ok (if target = a then (shafts.get sum).next - (shafts.get b).next
      else if target = sum then (shafts.get a).next + (shafts.get b).next
      else (shafts.get sum).next - (shafts.get a).next)
  | .multiplier input _ factor => .ok ((shafts.get input).next * factor)
  | .integrator i =>
    let value := (i.disk + (shafts.get i.integrand).current) * (shafts.get i.input).next
    .ok (if i.reversed then -value else value)
  | .functionTable t => do
    let old ← t.curve.eval t.position
    let new ← t.curve.eval (t.position + (shafts.get t.input).next)
    .ok (new - old)
  | .outputTable _ => .ok 0.0
  | .dial _ => .ok 0.0

/-- The device after it resolved a shaft: it has staged where it moves. -/
def fired (shafts : Shafts) : Device → Device
  | .integrator i =>
    .integrator { i with staged := some (i.disk + (shafts.get i.integrand).current) }
  | .functionTable t =>
    let x := t.position + (shafts.get t.input).next
    .functionTable { t with staged := (t.curve.eval x).toOption.map (x, ·) }
  | d => d

/-- All of a device except the level that a table may have recorded. -/
def uncached : Device → Device
  | .functionTable t => .functionTable { t with level := none }
  | d => d

def LevelSound : Device → Prop
  | .functionTable t => t.LevelSound
  | _ => True

/-- The shafts at which the device resolves are different ones. -/
def Distinct (d : Device) : Prop :=
  d.fitting.resolving.Nodup

/-- The needs and the target of a path are all that the device can resolve. -/
theorem target_eq_or_mem {d : Device} {p q : Path} (hp : p ∈ d.paths) (hq : q ∈ d.paths) :
    q.target = p.target ∨ q.target ∈ p.needs := by
  cases d <;> simp only [paths, List.mem_cons, List.not_mem_nil, or_false] at hp hq <;>
    rcases hp with rfl | rfl | rfl <;> rcases hq with rfl | rfl | rfl <;> simp

theorem mem_reacting {d : Device} {p : Path} (hp : p ∈ d.paths) {n : ShaftId}
    (hn : n ∈ p.needs) : n ∈ d.fitting.reacting := by
  cases d <;> simp only [paths, List.mem_cons, List.not_mem_nil, or_false] at hp <;>
    rcases hp with rfl | rfl | rfl <;>
    simp_all [Topology.Fitting.reacting, fitting, connections, PortRole.reacts] <;>
    rcases hn with rfl | rfl <;> simp

theorem enabled_of_mem_reacting {d : Device} {known : ShaftId → Prop} {s : ShaftId}
    (hr : s ∈ d.fitting.reacting) (hs : known s) (ht : ∀ p ∈ d.paths, known p.target) :
    d.Enabled known := by
  cases d <;> simp_all [Topology.Fitting.reacting, fitting, connections, PortRole.reacts, Enabled,
    paths, Path.Open]

theorem kind_eq_motor_iff {d : Device} : d.kind = .motor ↔ ∃ p ∈ d.paths, p.needs = [] := by
  cases d <;> simp [kind, paths]

theorem target_mem_connections {d : Device} {p : Path} (hp : p ∈ d.paths) :
    p.target ∈ d.connections.map (·.1) := by
  cases d <;> simp only [paths, List.mem_cons, List.not_mem_nil, or_false] at hp <;>
    rcases hp with rfl | rfl | rfl <;> simp [connections]

theorem rotation_congr {d : Device} {p : Path} (hd : d.Distinct) (hp : p ∈ d.paths)
    {a b : Shafts} (hn : ∀ n ∈ p.needs, (b.get n).next = (a.get n).next)
    (hc : ∀ s, (b.get s).current = (a.get s).current) :
    d.rotation b p.target = d.rotation a p.target := by
  cases d <;> simp only [paths, List.mem_cons, List.not_mem_nil, or_false] at hp <;>
    rcases hp with rfl | rfl | rfl <;>
    simp_all [rotation, Distinct, Topology.Fitting.resolving, fitting, connections,
      PortRole.resolves]

theorem fired_congr {d : Device} {p : Path} (hp : p ∈ d.paths) {a b : Shafts}
    (hn : ∀ n ∈ p.needs, (b.get n).next = (a.get n).next)
    (hc : ∀ s, (b.get s).current = (a.get s).current) : d.fired b = d.fired a := by
  cases d <;> simp_all [paths, fired]

/-- The device without all that it remembers for the running tick. -/
def bare (d : Device) : Device :=
  d.rollback.uncached

@[simp] theorem paths_bare (d : Device) : d.bare.paths = d.paths := by
  cases d <;> rfl

@[simp] theorem fitting_bare (d : Device) : d.bare.fitting = d.fitting := by
  cases d <;> rfl

@[simp] theorem rotation_bare (d : Device) (shafts : Shafts) (s : ShaftId) :
    d.bare.rotation shafts s = d.rotation shafts s := by
  cases d <;> rfl

@[simp] theorem fired_bare (d : Device) (shafts : Shafts) :
    d.bare.fired shafts = (d.fired shafts).uncached := by
  cases d <;> rfl

@[simp] theorem bare_uncached (d : Device) : d.uncached.bare = d.bare := by
  cases d <;> rfl

@[simp] theorem bare_fired (d : Device) (shafts : Shafts) : (d.fired shafts).bare = d.bare := by
  cases d <;> rfl

section Bare

variable {d e : Device}

theorem bare_eq_of_uncached (h : d.uncached = e.uncached) : d.bare = e.bare := by
  rw [← bare_uncached, h, bare_uncached]

theorem paths_eq_of_bare (h : d.bare = e.bare) : d.paths = e.paths := by
  rw [← paths_bare d, h, paths_bare]

theorem fitting_eq_of_bare (h : d.bare = e.bare) : d.fitting = e.fitting := by
  rw [← fitting_bare d, h, fitting_bare]

theorem rotation_eq_of_bare (h : d.bare = e.bare) (shafts : Shafts) (s : ShaftId) :
    d.rotation shafts s = e.rotation shafts s := by
  rw [← rotation_bare d, h, rotation_bare]

theorem fired_eq_of_bare (h : d.bare = e.bare) (shafts : Shafts) :
    (d.fired shafts).uncached = (e.fired shafts).uncached := by
  rw [← fired_bare d, h, fired_bare]

end Bare

theorem paths_eq_of_fitting_eq {d e : Device} (h : d.fitting = e.fitting) : d.paths = e.paths := by
  cases d <;> cases e <;> simp_all [fitting, kind, connections, paths]

end Device

end DifferentialAnalyzer
