import DifferentialAnalyzer.Machine.Clock
import DifferentialAnalyzer.Machine.Simulator

/-! A machine run against a clock, up to an end point if there is one. -/

namespace DifferentialAnalyzer

inductive RunState where
  | stopped
  | running
  | paused
  /-- The end point was reached, for good. -/
  | finished
  deriving DecidableEq, Repr

structure Runner where
  simulator : Simulator
  clock : Clock
  state : RunState
  /-- The tick at which the run ends. -/
  endPoint : Option Nat

namespace Runner

def ofSimulator (simulator : Simulator) (clock : Clock) (endPoint : Option Nat) : Runner :=
  ⟨simulator, clock, .stopped, endPoint⟩

def run (r : Runner) : Runner :=
  if r.state = .finished then r else { r with state := .running }

def pause (r : Runner) : Runner :=
  if r.state = .finished then r else { r with state := .paused }

/-- Stops and goes back to the start. -/
def stop (r : Runner) : Runner :=
  if r.state = .finished then r
  else { r with state := .stopped, simulator := r.simulator.reset, clock := r.clock.reset }

/-- Ticks that may still be run. -/
def within (r : Runner) (due : Nat) : Nat :=
  match r.endPoint with
  | none => due
  | some last => min due (last - r.simulator.tick)

def reachedEnd (r : Runner) : Bool :=
  r.endPoint.any (· ≤ r.simulator.tick)

/-- Lets time pass and runs the ticks that became due; the answer is their number. -/
def advance (r : Runner) (seconds : Float) : Runner × Except MachineError Nat :=
  if r.state = .running then
    let (clock, due) := r.clock.advance seconds
    let due := r.within due
    match r.simulator.run due with
    | (simulator, some e) => ({ r with simulator, clock }, .error e)
    | (simulator, none) =>
      let r := { r with simulator, clock }
      (if r.reachedEnd then { r with state := .finished } else r, .ok due)
  else (r, .ok 0)

def setMotorRotation (r : Runner) (rotation : Float) : Except Fault Runner := do
  return { r with simulator := ← r.simulator.setMotorRotation rotation }

end Runner

end DifferentialAnalyzer
