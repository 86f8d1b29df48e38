import DifferentialAnalyzer.Topology.Error

/-! Shafts by the keys that a description gives them, and back. -/

namespace DifferentialAnalyzer

structure ShaftKeys where
  byKey : List (Int × ShaftId)
  /-- The latest key of every shaft up to the last one recorded; one without a name has none. -/
  byShaft : Array (Option Int)

namespace ShaftKeys

def empty : ShaftKeys :=
  ⟨[], #[]⟩

/-- The row with another key for a shaft. It grows to the place of the shaft if that is past it. -/
def record (row : Array (Option Int)) (shaft : ShaftId) (key? : Option Int) :
    Array (Option Int) :=
  (row ++ Array.replicate (shaft.index + 1 - row.size) none).set shaft.index key? (by
    rw [Array.size_append, Array.size_replicate]
    omega)

def contains (k : ShaftKeys) (key : Int) : Bool :=
  (k.byKey.lookup key).isSome

def insert (k : ShaftKeys) (key : Int) (shaft : ShaftId) : Except TopologyError ShaftKeys :=
  if k.contains key then .error (.duplicateKey key)
  else .ok ⟨(key, shaft) :: k.byKey, record k.byShaft shaft (some key)⟩

def insertAnonymous (k : ShaftKeys) (shaft : ShaftId) : ShaftKeys :=
  ⟨k.byKey, record k.byShaft shaft none⟩

def get (k : ShaftKeys) (key : Int) : Except TopologyError ShaftId :=
  match k.byKey.lookup key with
  | some shaft => .ok shaft
  | none => .error (.unknownKey key)

def keyOf? (k : ShaftKeys) (shaft : ShaftId) : Option Int :=
  k.byShaft[shaft.index]?.join

/-- How many shafts have keys. -/
def size (k : ShaftKeys) : Nat :=
  k.byKey.length

end ShaftKeys

end DifferentialAnalyzer
