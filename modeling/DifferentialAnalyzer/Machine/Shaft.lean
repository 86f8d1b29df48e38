import DifferentialAnalyzer.Topology.Basic

/-! A shaft during a tick. Its rotation is resolved once in a tick and published when the tick is
committed; a tick that fails is rolled back. -/

namespace DifferentialAnalyzer

structure ShaftState where
  /-- As the last tick left it. -/
  current : Float
  /-- As the running tick resolved it. -/
  next : Float
  ready : Bool
  /-- The device that resolved it. -/
  driver : Option DeviceId

namespace ShaftState

/-- A shaft whose last rotation is given. -/
def ofRotation (rotation : Float) : ShaftState :=
  ⟨rotation, rotation, false, none⟩

def rest : ShaftState :=
  .ofRotation 0.0

/-- The rotation of this tick, once there is one. -/
def resolved (s : ShaftState) : Option Float :=
  if s.ready then some s.next else none

/-- Gives the shaft its rotation; a shaft that has one keeps it. -/
def resolve? (s : ShaftState) (value : Float) (driver : Option DeviceId) : Option ShaftState :=
  if s.ready then none
  else some { s with next := value, ready := true, driver := driver.or s.driver }

/-- Another device than this one resolved the shaft. -/
def drivenElsewhere (s : ShaftState) (device : DeviceId) : Bool :=
  s.ready && s.driver.any (· != device)

def commit (s : ShaftState) : ShaftState :=
  ⟨s.next, s.next, false, none⟩

def rollback (s : ShaftState) : ShaftState :=
  ⟨s.current, s.current, false, none⟩

end ShaftState

/-- All shafts of a machine. -/
abbrev Shafts :=
  Array ShaftState

namespace Shafts

def get (shafts : Shafts) (s : ShaftId) : ShaftState :=
  shafts.getD s.index .rest

def set (shafts : Shafts) (s : ShaftId) (state : ShaftState) : Shafts :=
  shafts.setIfInBounds s.index state

end Shafts

end DifferentialAnalyzer
