import DifferentialAnalyzer.Proofs.Machine.Calling
import DifferentialAnalyzer.Proofs.Machine.Playing

/-! The ticks that a clock has handed out and the ticks that its machine has run. They agree until a
tick fails, and from then on the clock is ahead until the runner is stopped. -/

namespace DifferentialAnalyzer

/-- A crank moves a table whose curve sums over a range that is not whole past 1.2. -/
def Piece.counter : List Piece :=
  [.shaft "crank" .point, .shaft "count" .point,
    .device "motor" (.motor ⟨0⟩ 0.5 false) (.of_reset_eq rfl),
    .device "counting" (.ofCurve ⟨0⟩ ⟨1⟩
      (.expression (.residual (.quantified .sum "i" (.lit 0.0)
        (.binary .divide (.binary .greater (.var "x") (.lit 1.2)) (.lit 2.0)) (.lit 1.0)) ["x"]))
      0.0) (.of_reset_eq rfl)]

namespace Runner

/-- A clock without an end point books the ticks that the machine runs, and those lost to a failure
as well. -/
structure Booked (events : List Event) (r : Runner) : Prop where
  endless : r.endPoint = none
  tick_le : r.simulator.tick ≤ r.clock.taken
  taken_eq_iff : r.clock.taken = r.simulator.tick ↔ ∀ e ∈ sinceStop events, ¬ e.Fails

section Booked

variable {events : List Event} {r r' : Runner} {e : Event}

theorem Booked.paid (h : Booked events r) (due : Nat) (hend : r'.endPoint = none)
    (hr : e.restarts = false) (hok : ¬ e.Fails) (htaken : r'.clock.taken = r.clock.taken + due)
    (htick : r'.simulator.tick = r.simulator.tick + due) : Booked (events ++ [e]) r' := by
  have hle := h.tick_le
  have hsame : r'.clock.taken = r'.simulator.tick ↔ r.clock.taken = r.simulator.tick := by omega
  refine ⟨hend, by omega, ?_⟩
  rw [hsame, h.taken_eq_iff, sinceStop_concat_of_not hr, List.forall_mem_append]
  simp [hok]

theorem Booked.lost (h : Booked events r) (due : Nat) (hend : r'.endPoint = none)
    (hr : e.restarts = false) (hfails : e.Fails) (htaken : r'.clock.taken = r.clock.taken + due)
    (htick : r'.simulator.tick < r.simulator.tick + due) : Booked (events ++ [e]) r' := by
  have hle := h.tick_le
  refine ⟨hend, by omega, ?_⟩
  rw [sinceStop_concat_of_not hr, List.forall_mem_append]
  constructor
  · intro heq
    omega
  · intro hall
    exact absurd hfails (hall.2 e (by simp))

theorem booked_zero (hend : r.endPoint = none) (htaken : r.clock.taken = 0)
    (htick : r.simulator.tick = 0) (hall : sinceStop events = []) : Booked events r := by
  refine ⟨hend, by omega, ?_⟩
  simp [htaken, htick, hall]

theorem Booked.perform (h : Booked events r) {call : Call} {result : Runner × Reply}
    (hp : r.Performs call result) : Booked (events ++ [⟨r.state, call, result.2⟩]) result.1 := by
  -- Without an end point nothing that is due is cut off.
  have hwithin : ∀ due, r.within due = due := by
    intro due
    simp only [within, h.endless]
  cases hp with
  | started hr => exact h.paid 0 h.endless rfl (by simp [Event.Fails]) rfl rfl
  | paused hr => exact h.paid 0 h.endless rfl (by simp [Event.Fails]) rfl rfl
  | stopped hr =>
    exact booked_zero h.endless rfl rfl
      (sinceStop_concat_of_restarts (by simp [Event.restarts, hr]))
  | ignored hr hcall =>
    refine h.paid 0 h.endless ?_ (by simp [Event.Fails]) rfl rfl
    rcases hcall with rfl | rfl | rfl <;> simp [Event.restarts, hr]
  | idled seconds hr => exact h.paid 0 h.endless rfl (by simp [Event.Fails]) rfl rfl
  | ran seconds hr hdue hrun hend =>
    have htick := Simulator.tick_eq_of_run_ok hrun
    rw [hdue, hwithin] at htick
    exact h.paid _ h.endless rfl (by simp [Event.Fails]) (r.clock.taken_advance seconds) htick
  | finished seconds hr hdue hrun hend hlast => simp [h.endless] at hend
  | failed seconds hr hdue hrun =>
    have htick := Simulator.tick_lt_of_run_failed hrun
    rw [hdue, hwithin] at htick
    exact h.lost _ h.endless rfl ⟨_, rfl⟩ (r.clock.taken_advance seconds) htick
  | turned rotation => exact h.paid 0 h.endless rfl (by simp [Event.Fails]) rfl rfl
  | refused rotation e => exact h.paid 0 h.endless rfl (by simp [Event.Fails]) rfl rfl

end Booked

/-- The machine has run every tick that the clock has handed out just as long as no tick has failed
since the last stop. What a failure leaves undone no later call makes up for. -/
theorem taken_eq_tick_iff {s : Simulator} (h : s.Built) {clock : Clock} (hc : clock.New)
    (calls : List Call) :
    ((ofSimulator s clock none).after calls).simulator.tick ≤
      ((ofSimulator s clock none).after calls).clock.taken ∧
    (((ofSimulator s clock none).after calls).clock.taken =
        ((ofSimulator s clock none).after calls).simulator.tick ↔
      ∀ e ∈ sinceStop ((ofSimulator s clock none).history calls), ¬ e.Fails) := by
  have hbooked : Booked ((ofSimulator s clock none).history calls)
      ((ofSimulator s clock none).after calls) := by
    induction calls using List.reverseRecOn with
    | nil => exact booked_zero rfl hc.atZero.2 h.tick_eq rfl
    | append_singleton calls call ih =>
      rw [history_concat, after_concat]
      exact ih.perform (performs _ call)
  exact ⟨hbooked.tick_le, hbooked.taken_eq_iff⟩

/-- Two of four due ticks are left undone, and after a stop the clock is right again. -/
theorem taken_eq_tick_counter : ∃ (s : Simulator) (clock : Clock),
    (Assembly.ofPieces Piece.counter).build = .ok s ∧ Clock.ofPeriod 0.25 = .ok clock ∧
    (∃ e ∈ (ofSimulator s clock none).history [.run, .advance 1.0, .stop, .run, .advance 0.5],
      e.Fails) ∧
    ((ofSimulator s clock none).after [.run, .advance 1.0, .stop, .run, .advance 0.5]).clock.taken =
      ((ofSimulator s clock none).after
        [.run, .advance 1.0, .stop, .run, .advance 0.5]).simulator.tick := by
  have hb : ∃ s clock, (Assembly.ofPieces Piece.counter).build = .ok s ∧
      Clock.ofPeriod 0.25 = .ok clock ∧
      (∃ e ∈ (ofSimulator s clock none).history [.run, .advance 1.0, .stop, .run, .advance 0.5],
        e.Fails) ∧
      ∀ e ∈ sinceStop ((ofSimulator s clock none).history
        [.run, .advance 1.0, .stop, .run, .advance 0.5]), ¬ e.Fails :=
    ⟨_, _, rfl, rfl, by decide +kernel, by decide +kernel⟩
  obtain ⟨s, clock, hs, hc, hfails, hok⟩ := hb
  exact ⟨s, clock, hs, hc, hfails, (taken_eq_tick_iff ⟨_, hs⟩ (.inl ⟨_, hc⟩) _).2.mpr hok⟩

/-- Two of four due ticks are run, and no time that passes brings the others back. -/
theorem forgotten_ticks_counter : ∃ (s : Simulator) (clock : Clock),
    (Assembly.ofPieces Piece.counter).build = .ok s ∧ Clock.ofPeriod 0.25 = .ok clock ∧
    ((ofSimulator s clock none).after
      [.run, .advance 1.0, .setMotorRotation 0.0, .advance 0.0]).clock.taken = 4 ∧
    ((ofSimulator s clock none).after
      [.run, .advance 1.0, .setMotorRotation 0.0, .advance 0.0]).simulator.tick = 2 :=
  ⟨_, _, rfl, rfl, by decide +kernel, by decide +kernel⟩

end Runner

end DifferentialAnalyzer
