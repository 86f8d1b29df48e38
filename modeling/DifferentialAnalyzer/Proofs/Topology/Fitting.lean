import DifferentialAnalyzer.Topology.Graph
import Mathlib.Data.List.Nodup

/-! What the wiring sees of a device, which lists of devices it can accept, and which devices a
draft holds after shafts and devices have been added to it. -/

namespace DifferentialAnalyzer.Topology

/-- A device without its parameters: its kind and what it is attached to. -/
structure Fitting where
  kind : DeviceKind
  connections : List (ShaftId × PortRole)

namespace Fitting

/-- The ports that the device with index `i` gets. -/
def ports (f : Fitting) (i : Nat) : List Port :=
  f.connections.map fun c => ⟨⟨i⟩, c.1, c.2⟩

/-- The shafts that take part when the device resolves one. -/
def resolving (f : Fitting) : List ShaftId :=
  (f.connections.filter (·.2.resolves)).map (·.1)

def outputs (f : Fitting) : List ShaftId :=
  (f.connections.filter (·.2 = .output)).map (·.1)

/-- The device is asked when one of these shafts is resolved. -/
def reacting (f : Fitting) : List ShaftId :=
  (f.connections.filter (·.2.reacts)).map (·.1)

/-- The shafts to which a device is attached in such a role. -/
def shaftsBy (q : PortRole → Bool) (f : Fitting) : List ShaftId :=
  (f.connections.filter fun c => q c.2).map (·.1)

/-- All ports of some devices, in the order in which they are numbered. -/
def allPorts (fs : List Fitting) : List Port :=
  fs.zipIdx.flatMap fun f => f.1.ports f.2

end Fitting

/-- Devices that make up a machine with `count` shafts. -/
structure Accepted (count : Nat) (fs : List Fitting) : Prop where
  bounded : ∀ f ∈ fs, ∀ c ∈ f.connections, c.1.index < count
  shape : ∀ f ∈ fs, f.kind.accepts (f.connections.map (·.2)) = true
  distinct : ∀ f ∈ fs, f.resolving.Nodup
  motor : (fs.filter (·.kind = .motor)).length = 1
  drivers : (fs.flatMap Fitting.outputs).Nodup

theorem Accepted.perm {count : Nat} {fs gs : List Fitting} (h : Accepted count fs)
    (hp : fs.Perm gs) : Accepted count gs where
  bounded f hf := h.bounded f (hp.mem_iff.mpr hf)
  shape f hf := h.shape f (hp.mem_iff.mpr hf)
  distinct f hf := h.distinct f (hp.mem_iff.mpr hf)
  motor := by rw [← (hp.filter _).length_eq]; exact h.motor
  drivers := ((hp.flatMap_right _).nodup_iff).mp h.drivers

/-- The topology belongs to these devices. -/
structure Describes (t : Topology) (fs : List Fitting) : Prop where
  accepted : Accepted t.shafts.size fs
  motor : (fs[t.motor.index]?).map (·.kind) = some .motor
  onlyMotor : ∀ i f, fs[i]? = some f → f.kind = .motor → i = t.motor.index
  reactive : ∀ s id, id ∈ t.reactive s ↔ ∃ f, fs[id.index]? = some f ∧ s ∈ f.reacting

namespace Draft

def nodePorts (d : Draft) (node : Node) : List Port :=
  node.ports.filterMap fun p => d.ports[p.index]?

/-- The devices of a draft are those of the list. -/
structure Holds (d : Draft) (fs : List Fitting) : Prop where
  ports : d.ports.toList = Fitting.allPorts fs
  inRange : ∀ node ∈ d.nodes.toList, ∀ p ∈ node.ports, p.index < d.ports.size
  nodes : d.nodes.toList.map (fun node => (node.kind, d.nodePorts node)) =
    fs.zipIdx.map fun f => (f.1.kind, f.1.ports f.2)

theorem holds_empty : Holds empty [] :=
  ⟨rfl, by simp [empty], rfl⟩

theorem Holds.addShaft {d : Draft} {fs : List Fitting} (h : d.Holds fs) (name : String)
    (o : Orientation) : (d.addShaft name o).1.Holds fs :=
  ⟨h.ports, h.inRange, h.nodes⟩

theorem Holds.length {d : Draft} {fs : List Fitting} (h : d.Holds fs) :
    d.nodes.size = fs.length := by
  have hh := congrArg List.length h.nodes
  simpa using hh

theorem filterMap_getElem?_append {α : Type} (xs ys : List α) :
    ((List.range ys.length).map fun i => Id.mk (xs.length + i)).filterMap
      (fun p => (xs ++ ys)[p.index]?) = ys := by
  induction ys generalizing xs with
  | nil => rfl
  | cons y ys ih =>
    have hh := ih (xs ++ [y])
    simp only [List.length_append, List.length_singleton, List.append_assoc,
      List.singleton_append, List.filterMap_map] at hh
    simp only [List.length_cons, List.range_succ_eq_map, List.map_cons, List.map_map,
      List.filterMap_cons, Nat.add_zero, List.filterMap_map]
    simp only [List.getElem?_append_right (Nat.le_refl xs.length), Nat.sub_self,
      List.getElem?_cons_zero]
    refine congrArg (y :: ·) (Eq.trans ?_ hh)
    apply List.filterMap_congr
    intro i _
    simp only [Function.comp, Nat.succ_eq_add_one, Nat.add_assoc, Nat.add_comm 1 i]

theorem nodePorts_eq (d : Draft) (node : Node) :
    d.nodePorts node = node.ports.filterMap fun p => d.ports.toList[p.index]? := by
  simp only [nodePorts, Array.getElem?_toList]

theorem Holds.addDevice {d : Draft} {fs : List Fitting} (h : d.Holds fs) (name : String)
    (f : Fitting) : (d.addDevice name f.kind f.connections).1.Holds (fs ++ [f]) := by
  have hports : (d.addDevice name f.kind f.connections).1.ports.toList =
      d.ports.toList ++ f.ports d.nodes.size := by
    simp [Draft.addDevice, Fitting.ports]
  have hnodes : (d.addDevice name f.kind f.connections).1.nodes.toList = d.nodes.toList ++
      [⟨name, f.kind, (List.range f.connections.length).map fun i => ⟨d.ports.size + i⟩⟩] := by
    simp [Draft.addDevice]
  have hlen := h.length
  refine ⟨?_, ?_, ?_⟩
  · rw [hports, h.ports, Fitting.allPorts, Fitting.allPorts, List.zipIdx_append]
    simp [hlen]
  · intro node hn p hp
    have hsize := congrArg List.length hports
    simp only [Array.length_toList, List.length_append, Fitting.ports, List.length_map] at hsize
    rw [hsize]
    rcases List.mem_append.mp (hnodes ▸ hn) with hn | hn
    · exact Nat.lt_add_right _ (h.inRange node hn p hp)
    · obtain rfl := List.mem_singleton.mp hn
      obtain ⟨i, hi, rfl⟩ := List.mem_map.mp hp
      exact Nat.add_lt_add_left (List.mem_range.mp hi) _
  · rw [hnodes, List.map_append, List.zipIdx_append, List.map_append]
    congr 1
    · rw [← h.nodes]
      apply List.map_congr_left
      intro node hn
      rw [nodePorts_eq, nodePorts_eq, hports]
      refine congrArg (Prod.mk _) (List.filterMap_congr fun p hp => ?_)
      exact List.getElem?_append_left (by simpa using h.inRange node hn p hp)
    · have hh := filterMap_getElem?_append d.ports.toList (f.ports d.nodes.size)
      simp only [Fitting.ports, List.length_map, Array.length_toList] at hh
      simp only [List.map_cons, List.map_nil, nodePorts_eq, hports, List.zipIdx_cons,
        List.zipIdx_nil, Nat.zero_add, ← hlen]
      exact congrArg (fun l => [(f.kind, l)]) hh

inductive Item where
  | shaft (name : String) (orientation : Orientation)
  | device (name : String) (fitting : Fitting)

namespace Item

def shaft? : Item → Option Shaft
  | .shaft name orientation => some ⟨name, orientation⟩
  | .device .. => none

def fitting? : Item → Option Fitting
  | .shaft .. => none
  | .device _ f => some f

end Item

def add (d : Draft) : Item → Draft
  | .shaft name orientation => (d.addShaft name orientation).1
  | .device name f => (d.addDevice name f.kind f.connections).1

theorem Holds.addAll {d : Draft} {fs : List Fitting} (h : d.Holds fs) (items : List Item) :
    (items.foldl add d).Holds (fs ++ items.filterMap Item.fitting?) := by
  induction items generalizing d fs with
  | nil => simpa using h
  | cons item items ih =>
    cases item with
    | shaft name o => exact ih (h.addShaft name o)
    | device name f =>
      have hh := ih (h.addDevice name f)
      rwa [List.append_assoc] at hh

theorem holds_items (items : List Item) :
    (items.foldl add empty).Holds (items.filterMap Item.fitting?) :=
  holds_empty.addAll items

theorem shafts_addAll (d : Draft) (items : List Item) :
    (items.foldl add d).shafts.toList = d.shafts.toList ++ items.filterMap Item.shaft? := by
  induction items generalizing d with
  | nil => simp
  | cons item items ih =>
    rw [List.foldl_cons, ih]
    cases item with
    | shaft name o => simp [add, Draft.addShaft, Item.shaft?]
    | device name f => rfl

end Draft

end DifferentialAnalyzer.Topology
