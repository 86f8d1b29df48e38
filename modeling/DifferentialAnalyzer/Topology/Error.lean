import DifferentialAnalyzer.Topology.Basic
import DifferentialAnalyzer.Fault

/-! What can be wrong with the wiring of a machine. -/

namespace DifferentialAnalyzer

inductive TopologyError where
  | missingShaft (port : PortId) (shaft : ShaftId)
  | missingDevice (port : PortId) (device : DeviceId)
  | portShape (device : DeviceId) (kind : DeviceKind) (found : List PortRole)
  | repeatedShaft (device : DeviceId) (shaft : ShaftId)
  | conflictingDrivers (shaft : ShaftId) (first second : DeviceId)
  | missingMotor
  | multipleMotors (first second : DeviceId)
  /-- A device lists a port of another one. -/
  | foreignPort (port : PortId) (expected actual : DeviceId)
  /-- A port is listed for a shaft that it is not on, or a second time, or not at all. -/
  | misplacedPort (port : PortId) (shaft : ShaftId)
  | duplicateKey (key : Int)
  | unknownKey (key : Int)
  deriving DecidableEq, Repr

namespace TopologyError

/-- The kind of error in one word. -/
def label : TopologyError → String
  | .missingShaft .. => "InvalidShaftRef"
  | .missingDevice .. => "InvalidDeviceRef"
  | .portShape .. => "PortShape"
  | .repeatedShaft .. => "RepeatedShaft"
  | .conflictingDrivers .. => "ConflictingDrivers"
  | .missingMotor => "MissingMotor"
  | .multipleMotors .. => "MultipleMotors"
  | .foreignPort .. => "PortDeviceMismatch"
  | .misplacedPort .. => "InconsistentAdjacency"
  | .duplicateKey .. => "DuplicateKey"
  | .unknownKey .. => "UnknownKey"

def roleList (roles : List PortRole) : String :=
  "[" ++ ", ".intercalate (roles.map PortRole.name) ++ "]"

def message : TopologyError → String
  | .missingShaft port shaft =>
    s!"Port {port.index} refers to non-existent shaft {shaft.index}"
  | .missingDevice port device =>
    s!"Port {port.index} refers to non-existent device {device.index}"
  | .portShape device kind found =>
    s!"Device {device.index} ({kind.name}) has ports " ++ roleList found ++ " (expected "
      ++ roleList kind.portShape ++ ")"
  | .repeatedShaft device shaft =>
    s!"Device {device.index} uses shaft {shaft.index} more than once"
  | .conflictingDrivers shaft first second =>
    s!"Shaft {shaft.index} is driven by both device {first.index} and device {second.index}"
  | .missingMotor => "Machine has no motor"
  | .multipleMotors first second =>
    s!"Only one motor is allowed (devices {first.index} and {second.index})"
  | .foreignPort port expected actual =>
    s!"Port {port.index} should belong to device {expected.index} but references {actual.index}"
  | .misplacedPort port shaft =>
    s!"Port {port.index} in shaft {shaft.index}'s adjacency list but doesn't reference that shaft"
  | .duplicateKey key => s!"Shaft key {key} registered twice"
  | .unknownKey key => s!"Shaft key {key} not found"

def toFault (e : TopologyError) : Fault :=
  .broken e.message

end TopologyError

end DifferentialAnalyzer
