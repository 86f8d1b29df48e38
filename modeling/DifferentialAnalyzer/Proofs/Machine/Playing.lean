import DifferentialAnalyzer.Proofs.Machine.Renewal

/-! Ticks one after another, each with its own rotation of the motor. As long as the rotation stays
they are what a run does, and a run that fails stops short of its count. -/

namespace DifferentialAnalyzer.Simulator

theorem tick_step_of_ok {s : Simulator} (h : s.step.2 = none) : s.step.1.tick = s.tick + 1 := by
  rw [step_eq, conclude_snd] at h
  rw [step_eq]
  cases hp : s.propagated with
  | mk t err =>
    obtain rfl : err = none := by simpa [hp] using h
    rfl

theorem tick_step_of_failed {s : Simulator} {e : MachineError} (h : s.step.2 = some e) :
    s.step.1.tick = s.tick := by
  rw [step_eq, conclude_snd] at h
  rw [step_eq]
  cases hp : s.propagated with
  | mk t err =>
    obtain rfl : err = some e := by simpa [hp] using h
    rfl

theorem tick_eq_of_run_ok {s s' : Simulator} {count : Nat} (h : s.run count = (s', none)) :
    s'.tick = s.tick + count := by
  induction count generalizing s with
  | zero =>
    obtain rfl : s = s' := congrArg Prod.fst h
    rfl
  | succ count ih =>
    rw [run_succ] at h
    cases hs : s.step with
    | mk next err =>
      rw [hs] at h
      cases err with
      | none =>
        have hstep : next.tick = s.tick + 1 := by
          simpa [hs] using tick_step_of_ok (s := s) (by rw [hs])
        have hrun := ih h
        omega
      | some e => exact absurd (congrArg Prod.snd h) (by simp)

theorem tick_lt_of_run_failed {s s' : Simulator} {count : Nat} {e : MachineError}
    (h : s.run count = (s', some e)) : s'.tick < s.tick + count := by
  obtain ⟨done, hlt, hok, hfail, heq⟩ := exists_of_run_failed (congrArg Prod.snd h)
  have hdone := tick_eq_of_run_ok (Prod.ext rfl hok : s.run done = ((s.run done).1, none))
  have hstuck := tick_step_of_failed hfail
  obtain rfl : s' = (s.run done).1.step.1 := congrArg Prod.fst (h.symm.trans heq)
  omega

/-- Ticks in which the motor turns as the list says, until one fails. -/
def play : List Float → Simulator → Simulator × Option MachineError
  | [], s => (s, none)
  | rotation :: rest, s =>
    match (s.withRotation rotation).step with
    | (s, none) => play rest s
    | failed => failed

theorem play_cons (rotation : Float) (rest : List Float) (s : Simulator) :
    s.play (rotation :: rest) =
      match (s.withRotation rotation).step with
      | (s', none) => s'.play rest
      | failed => failed :=
  rfl

theorem play_append {s : Simulator} {first later : List Float} (h : (s.play first).2 = none) :
    s.play (first ++ later) = (s.play first).1.play later := by
  induction first generalizing s with
  | nil => rfl
  | cons rotation rest ih =>
    rw [play_cons] at h
    rw [List.cons_append, play_cons, play_cons]
    cases hs : (s.withRotation rotation).step with
    | mk s' err =>
      rw [hs] at h
      cases err with
      | none => exact ih h
      | some e => exact absurd h (by simp)

theorem tick_play {s : Simulator} {rotations : List Float} (h : (s.play rotations).2 = none) :
    (s.play rotations).1.tick = s.tick + rotations.length := by
  induction rotations generalizing s with
  | nil => rfl
  | cons rotation rest ih =>
    rw [play_cons] at h ⊢
    cases hs : (s.withRotation rotation).step with
    | mk s' err =>
      rw [hs] at h
      cases err with
      | none =>
        have hstep : s'.tick = s.tick + 1 := by
          simpa [hs] using tick_step_of_ok (s := s.withRotation rotation) (by rw [hs])
        have hplay := ih h
        simp only [hplay, hstep, List.length_cons]
        omega
      | some e => exact absurd h (by simp)

theorem Kept.play {P : Simulator → Prop} (h : Kept P) {s : Simulator} (hs : P s)
    (rotations : List Float) : P (s.play rotations).1 := by
  induction rotations generalizing s with
  | nil => exact hs
  | cons rotation rest ih =>
    have hstep := h.step _ (h.turn s rotation hs)
    rw [play_cons]
    cases he : (s.withRotation rotation).step with
    | mk s' err =>
      rw [withRotation] at he
      rw [he] at hstep
      cases err with
      | none => exact ih hstep
      | some e => exact hstep

theorem AtRest.play_replicate_eq {s : Simulator} (h : s.AtRest) {rotation : Float}
    (hr : s.motorRotation = rotation) (count : Nat) :
    s.play (List.replicate count rotation) = s.run count := by
  induction count generalizing s with
  | zero => rfl
  | succ count ih =>
    have hrest := h.step.rest
    have hstep := h.motorRotation_step.trans hr
    have hturn : s.withRotation rotation = s := by rw [← hr, h.withRotation_motorRotation]
    rw [List.replicate_succ, play_cons, run_succ, hturn]
    cases hs : s.step with
    | mk s' err =>
      rw [hs] at hrest hstep
      cases err with
      | none => exact ih hrest hstep
      | some e => rfl

/-- Ticks with one rotation are a run with that rotation; if there are none, the motor has yet to be
given it. -/
theorem AtRest.play_replicate {s : Simulator} (h : s.AtRest) (rotation : Float) (count : Nat) :
    (s.play (List.replicate count rotation)).2 = ((s.withRotation rotation).run count).2 ∧
    (s.play (List.replicate count rotation)).1.withRotation rotation =
      ((s.withRotation rotation).run count).1 := by
  have hturned : (s.withRotation rotation).AtRest := (h.turn rotation).rest
  have hr := h.motorRotation_withRotation rotation
  cases count with
  | zero => exact ⟨rfl, rfl⟩
  | succ count =>
    have hplay : s.play (List.replicate (count + 1) rotation) =
        (s.withRotation rotation).run (count + 1) := by
      rw [← hturned.play_replicate_eq hr, List.replicate_succ, play_cons, play_cons,
        withRotation_withRotation]
    have hrun := (hturned.motorRotation_run (count + 1)).trans hr
    rw [hplay]
    have hself := (hturned.run (count + 1)).rest.withRotation_motorRotation
    rw [hrun] at hself
    exact ⟨rfl, hself⟩

end DifferentialAnalyzer.Simulator
