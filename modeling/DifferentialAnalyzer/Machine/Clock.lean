import DifferentialAnalyzer.Machine.Error

/-! Real time counted in ticks. The clock hands out the ticks that became due; whoever holds it runs
them. -/

namespace DifferentialAnalyzer

structure Clock where
  /-- Seconds in a tick. -/
  period : Float
  elapsed : Float
  /-- Ticks handed out so far. -/
  taken : Nat

namespace Clock

def ofPeriod (period : Float) : Except MachineError Clock :=
  if period.isFinite && period > 0.0 then .ok ⟨period, 0.0, 0⟩
  else .error (.invalidArgument "tick period must be positive and finite")

def ofFrequency (perSecond : Float) : Except MachineError Clock :=
  if perSecond.isFinite && perSecond > 0.0 then ofPeriod (1.0 / perSecond)
  else .error (.invalidArgument "tick frequency must be positive and finite")

/-- Makes up for rounding where times are summed, so that no tick is missed. -/
def slack : Float := 1e-9

/-- All ticks up to now, at most as many as a word of 64 bits counts. -/
def total (c : Clock) : Nat :=
  let ticks := c.elapsed / c.period
  -- The fraction is cut off, which is to round down: below zero there is only zero.
  (ticks + slack * largerOf ticks 1.0).toUInt64.toNat

/-- Ticks that were not handed out yet. -/
def due (c : Clock) : Nat :=
  c.total - c.taken

/-- Lets time pass and hands out what is due. Time does not run backwards. -/
def advance (c : Clock) (seconds : Float) : Clock × Nat :=
  let c := if seconds.isFinite && seconds > 0.0 then { c with elapsed := c.elapsed + seconds }
    else c
  ({ c with taken := c.taken + c.due }, c.due)

def reset (c : Clock) : Clock :=
  { c with elapsed := 0.0, taken := 0 }

end Clock

end DifferentialAnalyzer
