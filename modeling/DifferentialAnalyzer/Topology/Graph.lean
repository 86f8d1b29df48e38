import DifferentialAnalyzer.Topology.Error

/-! The wiring of a machine. A draft collects shafts and devices; building it checks the wiring and
sorts the ports by the shaft they are on. -/

namespace DifferentialAnalyzer

/-- Rows of ports behind one another in a single array. -/
structure Rows where
  items : Array PortId
  /-- Where each row begins, and behind them where the last one ends. -/
  offsets : Array Nat

namespace Rows

def empty : Rows :=
  ⟨#[], #[0]⟩

def append (r : Rows) (row : Array PortId) : Rows :=
  let items := r.items ++ row
  ⟨items, r.offsets.push items.size⟩

def ofArrays (rows : Array (Array PortId)) : Rows :=
  rows.foldl append empty

def row (r : Rows) (i : Nat) : List PortId :=
  (r.items.extract (r.offsets.getD i 0) (r.offsets.getD (i + 1) 0)).toList

end Rows

/-- The wiring of a machine with exactly one motor. -/
structure Topology where
  shafts : Array Topology.Shaft
  nodes : Array Topology.Node
  ports : Array Topology.Port
  /-- A row for every shaft: the ports on it. -/
  portsOn : Rows
  motor : DeviceId

namespace Topology

def shaftPorts (t : Topology) (s : ShaftId) : List PortId :=
  if s.index < t.shafts.size then t.portsOn.row s.index else []

/-- The ports on a shaft themselves. -/
def portRecords (t : Topology) (s : ShaftId) : List Port :=
  (t.shaftPorts s).filterMap fun p => t.ports[p.index]?

/-- The devices to ask when a shaft is resolved. -/
def reactive (t : Topology) (s : ShaftId) : List DeviceId :=
  ((t.portRecords s).filter (·.role.reacts)).map (·.device)

/-- The devices with an output on a shaft. -/
def drivers (t : Topology) (s : ShaftId) : List DeviceId :=
  ((t.portRecords s).filter (·.role = .output)).map (·.device)

/-- The shafts of a device in the order of its ports. -/
def deviceShafts (t : Topology) (d : DeviceId) : List ShaftId :=
  match t.nodes[d.index]? with
  | none => []
  | some node => node.ports.filterMap fun p => (t.ports[p.index]?).map (·.shaft)

/-- The shafts that no device resolves or reads while a tick runs. -/
def unconnected (t : Topology) : List ShaftId :=
  ((List.range t.shafts.size).map Id.mk).filter fun s => !(t.portRecords s).any (·.role.resolves)

/-- Shafts and devices in the order they were added. -/
structure Draft where
  shafts : Array Shaft
  nodes : Array Node
  ports : Array Port

namespace Draft

def empty : Draft :=
  ⟨#[], #[], #[]⟩

def addShaft (d : Draft) (name : String) (orientation : Orientation) : Draft × ShaftId :=
  ({ d with shafts := d.shafts.push ⟨name, orientation⟩ }, ⟨d.shafts.size⟩)

/-- Adds a device with one port for every connection. -/
def addDevice (d : Draft) (name : String) (kind : DeviceKind)
    (connections : List (ShaftId × PortRole)) : Draft × DeviceId :=
  let id : DeviceId := ⟨d.nodes.size⟩
  let ports := connections.map fun (shaft, role) => Port.mk id shaft role
  let portIds := (List.range connections.length).map fun i => Id.mk (d.ports.size + i)
  ({ d with nodes := d.nodes.push ⟨name, kind, portIds⟩, ports := d.ports ++ ports }, id)

/-- The first of some shafts that stands there a second time. -/
def firstRepeated (seen : List ShaftId) : List ShaftId → Option ShaftId
  | [] => none
  | s :: rest => if s ∈ seen then some s else firstRepeated (s :: seen) rest

/-- A port is on a shaft of the draft and belongs to a device of it. Its id needs no check, as it is
the place where the port was found. -/
def checkPort (d : Draft) (id : PortId) (p : Port) : Except TopologyError Unit :=
  if d.shafts.size ≤ p.shaft.index then .error (.missingShaft id p.shaft)
  else if d.nodes.size ≤ p.device.index then .error (.missingDevice id p.device)
  else .ok ()

def checkPorts (d : Draft) : List (Port × Nat) → Except TopologyError Unit
  | [] => .ok ()
  | (p, i) :: rest => do
    checkPort d ⟨i⟩ p
    checkPorts d rest

/-- The ports that a device lists, all of which have to be its own. -/
def ownPorts (d : Draft) (id : DeviceId) : List PortId → Except TopologyError (List Port)
  | [] => .ok []
  | p :: rest =>
    match d.ports[p.index]? with
    | none => .error (.missingDevice p id)
    | some port =>
      if port.device = id then do .ok (port :: (← ownPorts d id rest))
      else .error (.foreignPort p id port.device)

/-- A device has the ports of its kind, and those that resolve are on different shafts. -/
def checkNode (d : Draft) (id : DeviceId) (node : Node) : Except TopologyError Unit := do
  let ports ← d.ownPorts id node.ports
  let roles := ports.map (·.role)
  if !node.kind.accepts roles then .error (.portShape id node.kind roles)
  else
    match firstRepeated [] ((ports.filter (·.role.resolves)).map (·.shaft)) with
    | some s => .error (.repeatedShaft id s)
    | none => .ok ()

def checkNodes (d : Draft) : List (Node × Nat) → Except TopologyError Unit
  | [] => .ok ()
  | (node, i) :: rest => do
    checkNode d ⟨i⟩ node
    checkNodes d rest

/-- The ids of all motors. -/
def motors (d : Draft) : List DeviceId :=
  (d.nodes.toList.zipIdx.filter fun (node, _) => node.kind = .motor).map fun (_, i) => ⟨i⟩

/-- No shaft has two devices with an output on it. -/
def checkDrivers (seen : List (ShaftId × DeviceId)) : List Port → Except TopologyError Unit
  | [] => .ok ()
  | p :: rest =>
    if p.role = .output then
      match seen.lookup p.shaft with
      | some first => .error (.conflictingDrivers p.shaft first p.device)
      | none => checkDrivers ((p.shaft, p.device) :: seen) rest
    else checkDrivers seen rest

/-- Puts every port behind those already on its shaft. -/
def groupPorts (count : Nat) (ports : List Port) : Array (Array PortId) :=
  ports.zipIdx.foldl (fun table (p, i) => table.modify p.shaft.index (·.push ⟨i⟩))
    (Array.replicate count #[])

/-- A row for every shaft. -/
def sortPorts (count : Nat) (ports : List Port) : Rows :=
  .ofArrays (groupPorts count ports)

/-- A row lists ports on its shaft, and none that was seen before. Gives the ports seen by then. -/
def checkRow (ports : Array Port) (s : ShaftId) (seen : List PortId) :
    List PortId → Except TopologyError (List PortId)
  | [] => .ok seen
  | p :: rest =>
    if (ports[p.index]?).map (·.shaft) = some s ∧ p ∉ seen then
      checkRow ports s (p :: seen) rest
    else .error (.misplacedPort p s)

def checkRows (ports : Array Port) (seen : List PortId) :
    List (List PortId × Nat) → Except TopologyError Unit
  | [] => .ok ()
  | (row, i) :: rest => do
    checkRows ports (← checkRow ports ⟨i⟩ seen row) rest

/-- Every port stands once, in the row of its shaft. -/
def checkSorted (d : Draft) (rows : Rows) : Except TopologyError Unit :=
  if rows.offsets.size ≠ d.shafts.size + 1 ∨ rows.items.size ≠ d.ports.size then
    .error (.misplacedPort ⟨0⟩ (((d.ports[0]?).map (·.shaft)).getD ⟨0⟩))
  else checkRows d.ports [] ((List.range d.shafts.size).map rows.row).zipIdx

def build (d : Draft) : Except TopologyError Topology := do
  checkPorts d d.ports.toList.zipIdx
  checkNodes d d.nodes.toList.zipIdx
  if let first :: second :: _ := d.motors then
    throw (.multipleMotors first second)
  checkDrivers [] d.ports.toList
  match d.motors with
  | [] => throw .missingMotor
  | motor :: _ =>
    let rows := sortPorts d.shafts.size d.ports.toList
    d.checkSorted rows
    return ⟨d.shafts, d.nodes, d.ports, rows, motor⟩

end Draft

end Topology

end DifferentialAnalyzer
