import Mathlib.Algebra.Ring.Nat
import DifferentialAnalyzer.Proofs.Machine.Calling
import DifferentialAnalyzer.Proofs.Machine.Playing

/-! What a runner adds to its machine: it decides when ticks are run, and nothing else. The record
of its calls and replies determines the machine. -/

namespace DifferentialAnalyzer

namespace Runner

/-- What the machine has been through since it was last started: the rotation of the motor in each
tick, and the rotation that it has now. -/
structure Course where
  rotation : Float
  turns : List Float

namespace Course

def follow (c : Course) (e : Event) : Course :=
  if e.restarts then ⟨c.rotation, []⟩
  else ⟨e.rotation c.rotation, c.turns ++ List.replicate e.count c.rotation⟩

def ofEvents (rotation : Float) (events : List Event) : Course :=
  events.foldl follow ⟨rotation, []⟩

theorem ofEvents_concat (rotation : Float) (events : List Event) (e : Event) :
    ofEvents rotation (events ++ [e]) = (ofEvents rotation events).follow e := by
  simp [ofEvents]

theorem follow_of_not_restarts {e : Event} (h : e.restarts = false) (c : Course) : c.follow e =
    ⟨e.rotation c.rotation, c.turns ++ List.replicate e.count c.rotation⟩ := by
  simp [follow, h]

theorem length_turns (rotation : Float) (events : List Event) :
    (ofEvents rotation events).turns.length = ((sinceStop events).map Event.count).sum := by
  induction events using List.reverseRecOn with
  | nil => rfl
  | append_singleton events e ih =>
    rw [ofEvents_concat]
    cases he : e.restarts with
    | true => simp [follow, he, sinceStop_concat_of_restarts he]
    | false =>
      rw [follow_of_not_restarts he, sinceStop_concat_of_not he]
      simp [ih]

theorem eq_replicate (rotation : Float) {events : List Event}
    (h : ∀ e ∈ events, ∀ before, e.rotation before = before) :
    ∃ count, ofEvents rotation events = ⟨rotation, List.replicate count rotation⟩ := by
  induction events using List.reverseRecOn with
  | nil => exact ⟨0, rfl⟩
  | append_singleton events e ih =>
    obtain ⟨count, hcount⟩ := ih fun e he => h e (List.mem_append_left _ he)
    have hsame := h e (by simp) rotation
    rw [ofEvents_concat, hcount]
    cases he : e.restarts with
    | true => exact ⟨0, by simp [follow, he]⟩
    | false =>
      refine ⟨count + e.count, ?_⟩
      rw [follow_of_not_restarts he, hsame, List.replicate_append_replicate]

end Course

/-- The machine as it was last started: as it came, or reset. -/
def origin (s : Simulator) (events : List Event) : Simulator :=
  if events.any Event.restarts then s.reset else s

theorem origin_concat_of_not {s : Simulator} {events : List Event} {e : Event}
    (h : e.restarts = false) : origin s (events ++ [e]) = origin s events := by
  simp [origin, h]

theorem origin_concat_of_restarts {s : Simulator} {events : List Event} {e : Event}
    (h : e.restarts = true) : origin s (events ++ [e]) = s.reset := by
  simp [origin, h]

theorem sameMake_origin {s : Simulator} (h : s.AtRest) (events : List Event) :
    s.SameMake (origin s events) := by
  unfold origin
  split
  · exact s.kept_sameMake.reset s h.sameMake
  · exact h.sameMake

/-- The machine is where its course has brought it. -/
structure Played (s : Simulator) (events : List Event) (now : Simulator) : Prop where
  make : s.SameMake now
  rotation : now.motorRotation = (Course.ofEvents s.motorRotation events).rotation
  ok : ((origin s events).play (Course.ofEvents s.motorRotation events).turns).2 = none
  now_eq : ((origin s events).play (Course.ofEvents s.motorRotation events).turns).1.withRotation
    (Course.ofEvents s.motorRotation events).rotation = now

section Played

variable {s now : Simulator} {events : List Event} {e : Event}

theorem played_nil (h : s.AtRest) : Played s [] s :=
  ⟨h.sameMake, rfl, rfl, h.withRotation_motorRotation⟩

theorem Played.passed (h : Played s events now) (hr : e.restarts = false) (hcount : e.count = 0)
    (hsame : ∀ before, e.rotation before = before) : Played s (events ++ [e]) now := by
  have hcourse : Course.ofEvents s.motorRotation (events ++ [e]) =
      Course.ofEvents s.motorRotation events := by
    rw [Course.ofEvents_concat, Course.follow_of_not_restarts hr, hcount, hsame]
    simp
  refine ⟨h.make, ?_, ?_, ?_⟩ <;> rw [hcourse]
  · exact h.rotation
  · rw [origin_concat_of_not hr]
    exact h.ok
  · rw [origin_concat_of_not hr]
    exact h.now_eq

theorem Played.stopped (h : Played s events now) (hs : s.AtRest) (hr : e.restarts = true) :
    Played s (events ++ [e]) now.reset := by
  have hcourse : Course.ofEvents s.motorRotation (events ++ [e]) = ⟨now.motorRotation, []⟩ := by
    rw [Course.ofEvents_concat, Course.follow, if_pos hr, h.rotation]
  refine ⟨s.kept_sameMake.reset now h.make, ?_, ?_, ?_⟩ <;> rw [hcourse]
  · exact now.motorRotation_reset
  · rfl
  · rw [origin_concat_of_restarts hr]
    exact (h.make.reset_eq hs).symm

theorem Played.turned (h : Played s events now) (hr : e.restarts = false) (hcount : e.count = 0)
    {rotation : Float} (hrotation : ∀ before, e.rotation before = rotation) :
    Played s (events ++ [e]) (now.withRotation rotation) := by
  have hcourse : Course.ofEvents s.motorRotation (events ++ [e]) =
      ⟨rotation, (Course.ofEvents s.motorRotation events).turns⟩ := by
    rw [Course.ofEvents_concat, Course.follow_of_not_restarts hr, hcount, hrotation]
    simp
  refine ⟨s.kept_sameMake.turn now rotation h.make, ?_, ?_, ?_⟩ <;> rw [hcourse]
  · exact h.make.continues.rest.motorRotation_withRotation rotation
  · rw [origin_concat_of_not hr]
    exact h.ok
  · rw [origin_concat_of_not hr, ← h.now_eq, Simulator.withRotation_withRotation]

theorem Played.ran (h : Played s events now) (hs : s.AtRest) (hr : e.restarts = false)
    (hsame : ∀ before, e.rotation before = before) {later : Simulator}
    (hrun : now.run e.count = (later, none)) : Played s (events ++ [e]) later := by
  have hcourse : Course.ofEvents s.motorRotation (events ++ [e]) =
      ⟨now.motorRotation, (Course.ofEvents s.motorRotation events).turns ++
        List.replicate e.count now.motorRotation⟩ := by
    rw [Course.ofEvents_concat, Course.follow_of_not_restarts hr, hsame, h.rotation]
  -- The ticks of a run all have the rotation that the motor was given last.
  have hplayed := s.kept_sameMake.play (sameMake_origin hs events)
    (Course.ofEvents s.motorRotation events).turns
  have hticks := hplayed.continues.rest.play_replicate now.motorRotation e.count
  have hnow := h.now_eq
  rw [← h.rotation] at hnow
  rw [hnow, hrun] at hticks
  have hlater : (now.run e.count).1 = later := by rw [hrun]
  refine ⟨hlater ▸ s.kept_sameMake.run h.make e.count, ?_, ?_, ?_⟩ <;> rw [hcourse]
  · exact hlater ▸ h.make.continues.rest.motorRotation_run e.count
  · rw [origin_concat_of_not hr, Simulator.play_append h.ok]
    exact hticks.1
  · rw [origin_concat_of_not hr, Simulator.play_append h.ok]
    exact hticks.2

theorem Played.perform {r : Runner} (h : Played s events r.simulator) (hs : s.AtRest)
    {call : Call} {result : Runner × Reply} (hp : r.Performs call result)
    (hok : ¬ Event.Fails ⟨r.state, call, result.2⟩) :
    Played s (events ++ [⟨r.state, call, result.2⟩]) result.1.simulator := by
  cases hp with
  | started hr => exact h.passed rfl rfl fun _ => rfl
  | paused hr => exact h.passed rfl rfl fun _ => rfl
  | stopped hr => exact h.stopped hs (by simp [Event.restarts, hr])
  | ignored hr hcall =>
    rcases hcall with rfl | rfl | rfl
    · exact h.passed rfl rfl fun _ => rfl
    · exact h.passed rfl rfl fun _ => rfl
    · exact h.passed (by simp [Event.restarts, hr]) rfl fun _ => rfl
  | idled seconds hr => exact h.passed rfl rfl fun _ => rfl
  | ran seconds hr hdue hrun hend => exact h.ran hs rfl (fun _ => rfl) hrun
  | finished seconds hr hdue hrun hend hlast => exact h.ran hs rfl (fun _ => rfl) hrun
  | failed seconds hr hdue hrun => exact absurd ⟨_, rfl⟩ hok
  | turned rotation => exact h.turned rfl rfl fun _ => rfl
  | refused rotation e => exact h.passed rfl rfl fun _ => rfl

end Played

/-- The machine has not run past the end, and a stopped runner stands at the start. -/
structure InBounds (endPoint : Option Nat) (r : Runner) : Prop where
  endPoint_eq : r.endPoint = endPoint
  tick_le : ∀ last, endPoint = some last → r.simulator.tick ≤ last
  stopped : r.state = .stopped → r.simulator.tick = 0 ∧ r.clock.AtZero

section InBounds

variable {endPoint : Option Nat} {r : Runner}

theorem InBounds.tick_add_within_le (h : InBounds endPoint r) {last : Nat}
    (hlast : endPoint = some last) (due : Nat) : r.simulator.tick + r.within due ≤ last := by
  have hle := h.tick_le last hlast
  have hwithin : r.within due = min due (last - r.simulator.tick) := by
    simp only [within, h.endPoint_eq, hlast]
  omega

theorem InBounds.perform (h : InBounds endPoint r) {call : Call} {result : Runner × Reply}
    (hp : r.Performs call result) : InBounds endPoint result.1 := by
  have hmoved : ∀ state, state ≠ .stopped → InBounds endPoint { r with state } :=
    fun state hne => ⟨h.endPoint_eq, h.tick_le, fun he => absurd he hne⟩
  cases hp with
  | started hr => exact hmoved _ (by simp)
  | paused hr => exact hmoved _ (by simp)
  | stopped hr => exact ⟨h.endPoint_eq, fun _ _ => Nat.zero_le _, fun _ => ⟨rfl, rfl, rfl⟩⟩
  | ignored hr hcall => exact h
  | idled seconds hr => exact h
  | @ran seconds due simulator hr hdue hrun hend =>
    refine ⟨h.endPoint_eq, fun last hlast => ?_, fun he => by simp [hr] at he⟩
    exact Nat.le_of_lt (hend last (h.endPoint_eq.trans hlast))
  | @finished seconds due simulator last hr hdue hrun hend hlast =>
    refine ⟨h.endPoint_eq, fun last' hlast' => ?_, by simp⟩
    have htick := Simulator.tick_eq_of_run_ok hrun
    have hle := h.tick_add_within_le hlast' (r.clock.advance seconds).2
    change simulator.tick ≤ last'
    omega
  | @failed seconds due simulator e hr hdue hrun =>
    refine ⟨h.endPoint_eq, fun last hlast => ?_, fun he => by simp [hr] at he⟩
    -- What is due ends within bounds, and a failure ends before.
    have htick := Simulator.tick_lt_of_run_failed hrun
    have hle := h.tick_add_within_le hlast (r.clock.advance seconds).2
    change simulator.tick ≤ last
    omega
  | turned rotation => exact ⟨h.endPoint_eq, h.tick_le, h.stopped⟩
  | refused rotation e => exact h

/-- A runner finishes when time passes while it runs and brings its machine to the end. -/
theorem InBounds.finishes_iff (h : InBounds endPoint r) (hr : r.state ≠ .finished) {call : Call}
    {result : Runner × Reply} (hp : r.Performs call result) :
    result.1.state = .finished ↔ (∃ seconds, call = .advance seconds) ∧ r.state = .running ∧
      ∃ last, endPoint = some last ∧ last ≤ result.1.simulator.tick := by
  cases hp with
  | started hr => simp
  | paused hr => simp
  | stopped hr => simp
  | ignored hr' hcall => exact absurd hr' hr
  | idled seconds hr' => simp [hr, hr']
  | @ran seconds due simulator hr' hdue hrun hend =>
    simp only [hr', reduceCtorEq, false_iff, true_and, not_and, not_exists]
    exact fun _ last hlast => Nat.not_le_of_lt (hend last (h.endPoint_eq.trans hlast))
  | finished seconds hr' hdue hrun hend hlast =>
    simp only [hr', true_iff, true_and]
    exact ⟨⟨seconds, rfl⟩, _, h.endPoint_eq.symm.trans hend, hlast⟩
  | @failed seconds due simulator e hr' hdue hrun =>
    simp only [hr', reduceCtorEq, false_iff, true_and, not_and, not_exists]
    intro _ last hlast
    have htick := Simulator.tick_lt_of_run_failed hrun
    have hle := h.tick_add_within_le hlast (r.clock.advance seconds).2
    omega
  | turned rotation => simp [hr]
  | refused rotation e => simp [hr]

end InBounds

theorem Performs.of_finished {r : Runner} (hr : r.state = .finished) {call : Call}
    {result : Runner × Reply} (hp : r.Performs call result) :
    (∀ seconds, call = .advance seconds → result.2 = .ran 0) ∧ (result.1 = r ∨
      ∃ rotation, call = .setMotorRotation rotation ∧
        result.1 = { r with simulator := r.simulator.withRotation rotation }) := by
  cases hp with
  | started hr' => exact absurd hr hr'
  | paused hr' => exact absurd hr hr'
  | stopped hr' => exact absurd hr hr'
  | ignored _ hcall => exact ⟨fun seconds hs => by simp [hs] at hcall, .inl rfl⟩
  | idled seconds _ => exact ⟨fun _ _ => rfl, .inl rfl⟩
  | ran seconds hr' hdue hrun hend => simp [hr] at hr'
  | finished seconds hr' hdue hrun hend hlast => simp [hr] at hr'
  | failed seconds hr' hdue hrun => simp [hr] at hr'
  | turned rotation => exact ⟨by simp, .inr ⟨rotation, rfl, rfl⟩⟩
  | refused rotation e => exact ⟨by simp, .inl rfl⟩

theorem Performs.of_idle {r : Runner} (hr : r.state ≠ .running) {seconds : Float}
    {result : Runner × Reply} (hp : r.Performs (.advance seconds) result) :
    result = (r, .ran 0) := by
  cases hp with
  | ignored _ hcall => simp at hcall
  | idled _ _ => rfl
  | ran _ hr' hdue hrun hend => exact absurd hr' hr
  | finished _ hr' hdue hrun hend hlast => exact absurd hr' hr
  | failed _ hr' hdue hrun => exact absurd hr' hr

/-- A runner only schedules: what has become of its machine `s` after `calls`. -/
structure Scheduled (s : Simulator) (endPoint : Option Nat) (calls : List Call)
    (events : List Event) (r : Runner) : Prop where
  tick_eq : r.simulator.tick = ((sinceStop events).map Event.count).sum
  tick_le : ∀ last, endPoint = some last → r.simulator.tick ≤ last
  turns : (Course.ofEvents s.motorRotation events).turns.length = r.simulator.tick
  played : Played s events r.simulator
  /-- However time was sliced, the machine is where one run brings it. -/
  sliced : (∀ rotation, .setMotorRotation rotation ∉ calls) →
    (origin s events).run r.simulator.tick = (r.simulator, none)
  origin_eq : (∀ d ∈ s.devices, d.New) → origin s events = s
  stopped : r.state = .stopped → r.simulator.tick = 0 ∧ r.clock.AtZero
  idle : r.state ≠ .running → ∀ seconds, r.perform (.advance seconds) = (r, .ran 0)
  finishes : r.state ≠ .finished → ∀ call, (r.perform call).1.state = .finished ↔
    (∃ seconds, call = .advance seconds) ∧ r.state = .running ∧
      ∃ last, endPoint = some last ∧ last ≤ (r.perform call).1.simulator.tick
  closed : r.state = .finished → ∀ call,
    (∀ seconds, call = .advance seconds → (r.perform call).2 = .ran 0) ∧
    ((r.perform call).1 = r ∨ ∃ rotation, call = .setMotorRotation rotation ∧
      (r.perform call).1 = { r with simulator := r.simulator.withRotation rotation })

theorem tick_origin {s : Simulator} (h : s.Built) (events : List Event) :
    (origin s events).tick = 0 := by
  unfold origin
  split
  · rfl
  · exact h.tick_eq

theorem Played.run_eq {s now : Simulator} {r : Runner} {calls : List Call} (hs : s.AtRest)
    (h : Played s (r.history calls) now)
    (hcalls : ∀ rotation, .setMotorRotation rotation ∉ calls) :
    (origin s (r.history calls)).run
      (Course.ofEvents s.motorRotation (r.history calls)).turns.length = (now, none) := by
  have hsame : ∀ e ∈ r.history calls, ∀ before, e.rotation before = before := by
    intro e he before
    have hcall := call_mem_of_mem_history he
    unfold Event.rotation
    split
    next rotation hmotor hdone => exact absurd (hmotor ▸ hcall) (hcalls rotation)
    next => rfl
  obtain ⟨count, hcourse⟩ := Course.eq_replicate s.motorRotation hsame
  have horigin := (sameMake_origin hs (r.history calls)).continues.rest
  have hr : (origin s (r.history calls)).motorRotation = s.motorRotation := by
    unfold origin
    split
    · exact s.motorRotation_reset
    · rfl
  have hok := h.ok
  have hnow := h.now_eq
  rw [hcourse] at hok hnow ⊢
  rw [horigin.play_replicate_eq hr] at hok hnow
  have hself := (horigin.run count).rest.withRotation_motorRotation
  rw [horigin.motorRotation_run, hr, hnow] at hself
  rw [List.length_replicate]
  exact Prod.ext hself.symm hok

theorem schedules {s : Simulator} (h : s.Built) {clock : Clock} (hc : clock.New)
    (endPoint : Option Nat) (calls : List Call)
    (hok : ∀ e ∈ (ofSimulator s clock endPoint).history calls, ¬ e.Fails) :
    Scheduled s endPoint calls ((ofSimulator s clock endPoint).history calls)
      ((ofSimulator s clock endPoint).after calls) := by
  have hinv : Played s ((ofSimulator s clock endPoint).history calls)
        ((ofSimulator s clock endPoint).after calls).simulator ∧
      InBounds endPoint ((ofSimulator s clock endPoint).after calls) := by
    induction calls using List.reverseRecOn with
    | nil =>
      refine ⟨played_nil h.atRest, rfl, fun last _ => ?_, fun _ => ⟨h.tick_eq, hc.atZero⟩⟩
      exact h.tick_eq.trans_le last.zero_le
    | append_singleton calls call ih =>
      rw [history_concat] at hok ⊢
      rw [after_concat]
      obtain ⟨hplayed, hbounds⟩ := ih fun e he => hok e (List.mem_append_left _ he)
      have hp := ((ofSimulator s clock endPoint).after calls).performs call
      exact ⟨hplayed.perform h.atRest hp (hok _ (by simp)), hbounds.perform hp⟩
  obtain ⟨hplayed, hbounds⟩ := hinv
  have hturns : (Course.ofEvents s.motorRotation
      ((ofSimulator s clock endPoint).history calls)).turns.length =
      ((ofSimulator s clock endPoint).after calls).simulator.tick := by
    rw [← hplayed.now_eq, Simulator.tick_withRotation, Simulator.tick_play hplayed.ok,
      tick_origin h, Nat.zero_add]
  have horigin : (∀ d ∈ s.devices, d.New) →
      origin s ((ofSimulator s clock endPoint).history calls) = s := by
    intro hnew
    rw [origin, h.reset_eq hnew, ite_self]
  exact {
    tick_eq := by rw [← hturns, Course.length_turns]
    tick_le := hbounds.tick_le
    turns := hturns
    played := hplayed
    sliced := fun hcalls => by rw [← hturns]; exact hplayed.run_eq h.atRest hcalls
    origin_eq := horigin
    stopped := hbounds.stopped
    idle := fun hr seconds => (performs _ (.advance seconds)).of_idle hr
    finishes := fun hr call => hbounds.finishes_iff hr (performs _ call)
    closed := fun hr call => (performs _ call).of_finished hr }

/-- The tripler is stopped once, with its crank already faster, and then run past its end. -/
theorem schedules_tripler : ∃ (s : Simulator) (clock : Clock),
    (Assembly.ofPieces Piece.tripler).build = .ok s ∧ Clock.ofPeriod 0.25 = .ok clock ∧
    ((ofSimulator s clock (some 3)).after [.run, .advance 0.5, .setMotorRotation 2.0, .stop, .run,
      .advance 9.0]).state = .finished ∧
    Scheduled s (some 3)
      [.run, .advance 0.5, .setMotorRotation 2.0, .stop, .run, .advance 9.0]
      ((ofSimulator s clock (some 3)).history [.run, .advance 0.5, .setMotorRotation 2.0, .stop,
        .run, .advance 9.0])
      ((ofSimulator s clock (some 3)).after [.run, .advance 0.5, .setMotorRotation 2.0, .stop,
        .run, .advance 9.0]) := by
  have hb : ∃ s clock, (Assembly.ofPieces Piece.tripler).build = .ok s ∧
      Clock.ofPeriod 0.25 = .ok clock ∧
      ((ofSimulator s clock (some 3)).after [.run, .advance 0.5, .setMotorRotation 2.0, .stop,
        .run, .advance 9.0]).state = .finished ∧
      ∀ e ∈ (ofSimulator s clock (some 3)).history [.run, .advance 0.5, .setMotorRotation 2.0,
        .stop, .run, .advance 9.0], ¬ e.Fails :=
    ⟨_, _, rfl, rfl, by decide +kernel, by decide +kernel⟩
  obtain ⟨s, clock, hs, hc, hstate, hok⟩ := hb
  exact ⟨s, clock, hs, hc, hstate, schedules ⟨_, hs⟩ (.inl ⟨_, hc⟩) (some 3) _ hok⟩

end Runner

end DifferentialAnalyzer
