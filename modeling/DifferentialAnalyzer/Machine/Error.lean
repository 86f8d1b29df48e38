import DifferentialAnalyzer.Topology.Error
import DifferentialAnalyzer.Expr.Error

/-! What can go wrong when a machine is put together or runs. -/

namespace DifferentialAnalyzer

inductive MachineError where
  | invalidArgument (what : String)
  | duplicateResolution (shaft : ShaftId) (device : DeviceId)
  | expression (device : DeviceId) (cause : ExprError)
  | topology (cause : TopologyError)
  | fault (cause : Fault)

namespace MachineError

/-- The kind of error, and behind a dot the kind of its cause. -/
def label : MachineError → String
  | .invalidArgument _ => "InvalidArg"
  | .duplicateResolution .. => "DuplicateResolution"
  | .expression _ cause => "Expression." ++ cause.label
  | .topology cause => "Topology." ++ cause.label
  | .fault cause => "Core." ++ cause.label

def message : MachineError → String
  | .invalidArgument what => s!"Invalid argument: {what}"
  | .duplicateResolution shaft device =>
    s!"Shaft {shaft.index} resolved twice in one tick (second write by device {device.index})"
  | .expression device cause =>
    s!"Transfer function of device {device.index} failed: " ++ cause.message
  | .topology cause => "Topology error: " ++ cause.message
  | .fault cause => cause.message

end MachineError

end DifferentialAnalyzer
