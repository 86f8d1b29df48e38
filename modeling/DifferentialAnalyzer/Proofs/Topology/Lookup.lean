import DifferentialAnalyzer.Proofs.Topology.Index

/-! Lookups in a topology with every index checked. A checked lookup gives `none` as soon as an
index is outside of its array or a row does not lie within it, and in a built topology none of them
does. -/

namespace DifferentialAnalyzer

namespace Checked

def row (r : Rows) (i : Nat) : Option (List PortId) := do
  let start ← r.offsets[i]?
  let stop ← r.offsets[i + 1]?
  if start ≤ stop ∧ stop ≤ r.items.size then some (r.items.extract start stop).toList else none

def shaftPorts (t : Topology) (s : ShaftId) : Option (List PortId) :=
  if s.index < t.shafts.size then row t.portsOn s.index else some []

def portRecords (t : Topology) (s : ShaftId) : Option (List Topology.Port) := do
  (← shaftPorts t s).mapM fun p => t.ports[p.index]?

def reactive (t : Topology) (s : ShaftId) : Option (List DeviceId) := do
  return ((← portRecords t s).filter (·.role.reacts)).map (·.device)

def drivers (t : Topology) (s : ShaftId) : Option (List DeviceId) := do
  return ((← portRecords t s).filter (·.role = .output)).map (·.device)

def deviceShafts (t : Topology) (d : DeviceId) : Option (List ShaftId) :=
  match t.nodes[d.index]? with
  | none => some []
  | some node => node.ports.mapM fun p => (t.ports[p.index]?).map (·.shaft)

def unconnected (t : Topology) : Option (List ShaftId) :=
  ((List.range t.shafts.size).map Id.mk).filterM fun s => do
    return !(← portRecords t s).any (·.role.resolves)

theorem row_eq {r : Rows} {rows : List (List PortId)} (h : r.Holds rows) {i : Nat}
    (hi : i < rows.length) : row r i = some (r.row i) := by
  obtain ⟨start, stop, hstart, hstop, hle, hsize⟩ := h.bounds hi
  simp only [row, Rows.row, Array.getD_eq_getD_getElem?, hstart, hstop, Option.bind_eq_bind,
    Option.bind_some, if_pos (And.intro hle hsize), Option.getD_some]

end Checked

namespace Topology

/-- All lookups in the topology stay within its arrays. -/
structure InRange (t : Topology) : Prop where
  shaftPorts : ∀ s, Checked.shaftPorts t s = some (t.shaftPorts s)
  portRecords : ∀ s, Checked.portRecords t s = some (t.portRecords s)
  reactive : ∀ s, Checked.reactive t s = some (t.reactive s)
  drivers : ∀ s, Checked.drivers t s = some (t.drivers s)
  deviceShafts : ∀ d, Checked.deviceShafts t d = some (t.deviceShafts d)
  unconnected : Checked.unconnected t = some t.unconnected

namespace Draft

variable {d : Draft} {t : Topology}

theorem checked_shaftPorts (ht : d.build = .ok t) (s : ShaftId) :
    Checked.shaftPorts t s = some (t.shaftPorts s) := by
  by_cases hs : s.index < t.shafts.size
  · obtain ⟨-, -, -, motor, -, rfl⟩ := (build_eq_ok_iff d t).mp ht
    rw [Checked.shaftPorts, if_pos hs, shaftPorts, if_pos hs]
    refine Checked.row_eq (holds_sortPorts _ _) ?_
    rwa [List.length_map, Array.length_toList, size_groupPorts]
  · rw [Checked.shaftPorts, if_neg hs, shaftPorts, if_neg hs]

theorem checked_portRecords (ht : d.build = .ok t) (s : ShaftId) :
    Checked.portRecords t s = some (t.portRecords s) := by
  rw [Checked.portRecords, checked_shaftPorts ht, portRecords]
  refine mapM_eq_filterMap fun p hp => ?_
  obtain ⟨port, hport, -⟩ := (mem_shaftPorts_iff ht).mp hp
  exact ⟨port, hport⟩

theorem Holds.checked_deviceShafts {fs : List Fitting} (h : d.Holds fs) (ht : d.build = .ok t)
    (id : DeviceId) : Checked.deviceShafts t id = some (t.deviceShafts id) := by
  obtain ⟨-, hnodes, hports⟩ := fields_of_build ht
  rw [Checked.deviceShafts, Topology.deviceShafts, hnodes]
  cases hn : d.nodes[id.index]? with
  | none => rfl
  | some node =>
    refine mapM_eq_filterMap fun p hp => ?_
    have hmem : node ∈ d.nodes.toList := Array.mem_toList_iff.mpr (Array.mem_of_getElem? hn)
    rw [hports, Array.getElem?_eq_getElem (h.inRange node hmem p hp)]
    exact ⟨_, rfl⟩

theorem Holds.inRange_of_build {fs : List Fitting} (h : d.Holds fs) (ht : d.build = .ok t) :
    t.InRange where
  shaftPorts := checked_shaftPorts ht
  portRecords := checked_portRecords ht
  reactive s := by rw [Checked.reactive, checked_portRecords ht]; rfl
  drivers s := by rw [Checked.drivers, checked_portRecords ht]; rfl
  deviceShafts := h.checked_deviceShafts ht
  unconnected := filterM_eq_filter fun s _ => by rw [checked_portRecords ht]; rfl

end Draft

end Topology

end DifferentialAnalyzer
