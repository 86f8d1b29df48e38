import Mathlib.Data.List.DropRight
import DifferentialAnalyzer.Machine.Runner
import DifferentialAnalyzer.Proofs.Machine.Renewal

/-! Calls to a runner, the ways in which they go, and the record of what was called and replied. -/

namespace DifferentialAnalyzer

namespace Clock

def New (c : Clock) : Prop :=
  (∃ period, ofPeriod period = .ok c) ∨ ∃ perSecond, ofFrequency perSecond = .ok c

def AtZero (c : Clock) : Prop :=
  c.elapsed = 0.0 ∧ c.taken = 0

theorem atZero_of_ofPeriod {period : Float} {c : Clock} (h : ofPeriod period = .ok c) :
    c.AtZero := by
  unfold ofPeriod at h
  split at h
  · obtain rfl := Except.ok.inj h
    exact ⟨rfl, rfl⟩
  · cases h

theorem New.atZero {c : Clock} (h : c.New) : c.AtZero := by
  rcases h with ⟨period, h⟩ | ⟨perSecond, h⟩
  · exact atZero_of_ofPeriod h
  · unfold ofFrequency at h
    split at h
    · exact atZero_of_ofPeriod h
    · cases h

theorem taken_advance (c : Clock) (seconds : Float) :
    (c.advance seconds).1.taken = c.taken + (c.advance seconds).2 := by
  unfold advance
  split <;> rfl

end Clock

namespace Runner

inductive Call where
  | run
  | pause
  | stop
  | advance (seconds : Float)
  | setMotorRotation (rotation : Float)

inductive Reply where
  | done
  | ran (count : Nat)
  | failed (e : MachineError)
  | refused (e : Fault)

def perform (r : Runner) : Call → Runner × Reply
  | .run => (r.run, .done)
  | .pause => (r.pause, .done)
  | .stop => (r.stop, .done)
  | .advance seconds =>
    match r.advance seconds with
    | (r', .ok count) => (r', .ran count)
    | (r', .error e) => (r', .failed e)
  | .setMotorRotation rotation =>
    match r.setMotorRotation rotation with
    | .ok r' => (r', .done)
    | .error e => (r, .refused e)

def after (r : Runner) (calls : List Call) : Runner :=
  calls.foldl (fun r call => (r.perform call).1) r

/-- A call, the state of the runner that was called, and its reply. -/
structure Event where
  state : RunState
  call : Call
  reply : Reply

def history (r : Runner) : List Call → List Event
  | [] => []
  | call :: rest => ⟨r.state, call, (r.perform call).2⟩ :: (r.perform call).1.history rest

theorem after_concat (r : Runner) (calls : List Call) (call : Call) :
    r.after (calls ++ [call]) = ((r.after calls).perform call).1 := by
  simp [after]

theorem history_concat (r : Runner) (calls : List Call) (call : Call) :
    r.history (calls ++ [call]) = r.history calls ++
      [⟨(r.after calls).state, call, ((r.after calls).perform call).2⟩] := by
  induction calls generalizing r with
  | nil => rfl
  | cons first rest ih => exact congrArg (_ :: ·) (ih (r.perform first).1)

theorem call_mem_of_mem_history {r : Runner} {calls : List Call} {e : Event}
    (he : e ∈ r.history calls) : e.call ∈ calls := by
  induction calls generalizing r with
  | nil => cases he
  | cons call rest ih =>
    rcases List.mem_cons.mp he with rfl | he
    · exact List.mem_cons_self
    · exact List.mem_cons_of_mem _ (ih he)

namespace Event

/-- A runner that has finished does not stop any more. -/
def restarts (e : Event) : Bool :=
  match e.call with
  | .stop => e.state ≠ .finished
  | _ => false

def count (e : Event) : Nat :=
  match e.reply with
  | .ran count => count
  | _ => 0

def rotation (e : Event) (before : Float) : Float :=
  match e.call, e.reply with
  | .setMotorRotation rotation, .done => rotation
  | _, _ => before

def Fails (e : Event) : Prop :=
  ∃ err, e.reply = .failed err

instance (e : Event) : Decidable e.Fails :=
  match h : e.reply with
  | .failed err => .isTrue ⟨err, h⟩
  | .done => .isFalse fun ⟨_, he⟩ => by simp [h] at he
  | .ran _ => .isFalse fun ⟨_, he⟩ => by simp [h] at he
  | .refused _ => .isFalse fun ⟨_, he⟩ => by simp [h] at he

end Event

/-- The events after the last stop that took effect. -/
def sinceStop (events : List Event) : List Event :=
  events.rtakeWhile fun e => !e.restarts

section SinceStop

variable {events : List Event} {e : Event}

theorem sinceStop_concat_of_not (h : e.restarts = false) :
    sinceStop (events ++ [e]) = sinceStop events ++ [e] :=
  List.rtakeWhile_concat_pos _ _ _ (by simp [h])

theorem sinceStop_concat_of_restarts (h : e.restarts = true) : sinceStop (events ++ [e]) = [] :=
  List.rtakeWhile_concat_neg _ _ _ (by simp [h])

end SinceStop

/-- The ways in which a call goes. -/
inductive Performs (r : Runner) : Call → Runner × Reply → Prop
  | started (hr : r.state ≠ .finished) : Performs r .run ({ r with state := .running }, .done)
  | paused (hr : r.state ≠ .finished) : Performs r .pause ({ r with state := .paused }, .done)
  | stopped (hr : r.state ≠ .finished) : Performs r .stop
      ({ r with
        state := .stopped, simulator := r.simulator.reset, clock := r.clock.reset }, .done)
  | ignored {call : Call} (hr : r.state = .finished)
      (hcall : call = .run ∨ call = .pause ∨ call = .stop) : Performs r call (r, .done)
  | idled (seconds : Float) (hr : r.state ≠ .running) :
      Performs r (.advance seconds) (r, .ran 0)
  | ran (seconds : Float) {due : Nat} {simulator : Simulator} (hr : r.state = .running)
      (hdue : due = r.within (r.clock.advance seconds).2)
      (hrun : r.simulator.run due = (simulator, none))
      (hend : ∀ last, r.endPoint = some last → simulator.tick < last) :
      Performs r (.advance seconds)
        ({ r with simulator, clock := (r.clock.advance seconds).1 }, .ran due)
  | finished (seconds : Float) {due : Nat} {simulator : Simulator} {last : Nat}
      (hr : r.state = .running) (hdue : due = r.within (r.clock.advance seconds).2)
      (hrun : r.simulator.run due = (simulator, none)) (hend : r.endPoint = some last)
      (hlast : last ≤ simulator.tick) :
      Performs r (.advance seconds)
        ({ r with simulator, clock := (r.clock.advance seconds).1, state := .finished }, .ran due)
  | failed (seconds : Float) {due : Nat} {simulator : Simulator} {e : MachineError}
      (hr : r.state = .running) (hdue : due = r.within (r.clock.advance seconds).2)
      (hrun : r.simulator.run due = (simulator, some e)) :
      Performs r (.advance seconds)
        ({ r with simulator, clock := (r.clock.advance seconds).1 }, .failed e)
  | turned (rotation : Float) : Performs r (.setMotorRotation rotation)
      ({ r with simulator := r.simulator.withRotation rotation }, .done)
  | refused (rotation : Float) (e : Fault) :
      Performs r (.setMotorRotation rotation) (r, .refused e)

theorem performs_advance (r : Runner) (seconds : Float) :
    r.Performs (.advance seconds) (r.perform (.advance seconds)) := by
  by_cases hr : r.state = .running
  · cases hrun : r.simulator.run (r.within (r.clock.advance seconds).2) with
    | mk simulator err =>
      cases err with
      | some e =>
        have he : r.perform (.advance seconds) =
            ({ r with simulator, clock := (r.clock.advance seconds).1 }, .failed e) := by
          simp [perform, Runner.advance, hr, hrun]
        rw [he]
        exact .failed seconds hr rfl hrun
      | none =>
        by_cases hend : ∃ last, r.endPoint = some last ∧ last ≤ simulator.tick
        · obtain ⟨last, hlast, hle⟩ := hend
          have he : r.perform (.advance seconds) =
              ({ r with simulator, clock := (r.clock.advance seconds).1, state := .finished },
                .ran (r.within (r.clock.advance seconds).2)) := by
            simp [perform, Runner.advance, hr, hrun, reachedEnd, hlast, hle]
          rw [he]
          exact .finished seconds hr rfl hrun hlast hle
        · have hopen : ∀ last, r.endPoint = some last → simulator.tick < last :=
            fun last hlast => Nat.lt_of_not_le fun hle => hend ⟨last, hlast, hle⟩
          have hany : r.endPoint.any (· ≤ simulator.tick) = false := by
            cases hlast : r.endPoint with
            | none => rfl
            | some last => simpa using hopen last hlast
          have he : r.perform (.advance seconds) =
              ({ r with simulator, clock := (r.clock.advance seconds).1 },
                .ran (r.within (r.clock.advance seconds).2)) := by
            simp [perform, Runner.advance, hr, hrun, reachedEnd, hany]
          rw [he]
          exact .ran seconds hr rfl hrun hopen
  · have he : r.perform (.advance seconds) = (r, .ran 0) := by simp [perform, Runner.advance, hr]
    rw [he]
    exact .idled seconds hr

theorem performs (r : Runner) (call : Call) : r.Performs call (r.perform call) := by
  cases call with
  | run =>
    by_cases hr : r.state = .finished
    · simp only [perform, Runner.run, if_pos hr]
      exact .ignored hr (.inl rfl)
    · simp only [perform, Runner.run, if_neg hr]
      exact .started hr
  | pause =>
    by_cases hr : r.state = .finished
    · simp only [perform, Runner.pause, if_pos hr]
      exact .ignored hr (.inr (.inl rfl))
    · simp only [perform, Runner.pause, if_neg hr]
      exact .paused hr
  | stop =>
    by_cases hr : r.state = .finished
    · simp only [perform, Runner.stop, if_pos hr]
      exact .ignored hr (.inr (.inr rfl))
    · simp only [perform, Runner.stop, if_neg hr]
      exact .stopped hr
  | advance seconds => exact r.performs_advance seconds
  | setMotorRotation rotation =>
    have hset := r.simulator.setMotorRotation_eq rotation
    cases hf : requireFinite "motor rotation" rotation with
    | error e =>
      have he : r.perform (.setMotorRotation rotation) = (r, .refused e) := by
        simp only [perform, Runner.setMotorRotation, hset, hf]
        rfl
      rw [he]
      exact .refused rotation e
    | ok x =>
      obtain rfl : rotation = x := by
        unfold requireFinite at hf
        split at hf
        · exact Except.ok.inj hf
        · cases hf
      have he : r.perform (.setMotorRotation rotation) =
          ({ r with simulator := r.simulator.withRotation rotation }, .done) := by
        simp only [perform, Runner.setMotorRotation, hset, hf]
        rfl
      rw [he]
      exact .turned rotation

/-- What a call makes of the machine, if anything. -/
def operation? (r : Runner) : Call → Option Operation
  | .run | .pause => none
  | .stop => if r.state = .finished then none else some .reset
  | .advance seconds =>
    if r.state = .running then some (.run (r.within (r.clock.advance seconds).2)) else none
  | .setMotorRotation rotation => some (.setMotorRotation rotation)

/-- What some calls make of the machine. -/
def operations (r : Runner) : List Call → List Operation
  | [] => []
  | call :: rest => (r.operation? call).toList ++ (r.perform call).1.operations rest

theorem simulator_perform (r : Runner) (call : Call) :
    (r.perform call).1.simulator = r.simulator.after (r.operation? call).toList := by
  cases call with
  | run =>
    simp only [perform, Runner.run, operation?]
    split <;> rfl
  | pause =>
    simp only [perform, Runner.pause, operation?]
    split <;> rfl
  | stop =>
    simp only [perform, Runner.stop, operation?]
    split <;> rfl
  | advance seconds =>
    by_cases hr : r.state = .running
    · have hafter : r.simulator.after (r.operation? (.advance seconds)).toList =
          (r.simulator.run (r.within (r.clock.advance seconds).2)).1 := by
        rw [operation?, if_pos hr]
        rfl
      rw [hafter]
      simp only [perform, Runner.advance, if_pos hr]
      generalize r.simulator.run (r.within (r.clock.advance seconds).2) = result
      obtain ⟨simulator, _ | e⟩ := result
      · dsimp only
        split <;> rfl
      · rfl
    · rw [operation?, if_neg hr]
      simp only [perform, Runner.advance, if_neg hr]
      rfl
  | setMotorRotation rotation =>
    simp only [perform, Runner.setMotorRotation, operation?]
    cases hs : r.simulator.setMotorRotation rotation <;>
      simp [Simulator.after, Simulator.perform, hs, bind, Except.bind, pure, Except.pure]

theorem simulator_after (r : Runner) (calls : List Call) :
    (r.after calls).simulator = r.simulator.after (r.operations calls) := by
  induction calls generalizing r with
  | nil => rfl
  | cons call rest ih =>
    have hrest : (r.after (call :: rest)) = (r.perform call).1.after rest := rfl
    rw [hrest, ih, simulator_perform, operations, Simulator.after, Simulator.after, Simulator.after,
      List.foldl_append]

end Runner

end DifferentialAnalyzer
