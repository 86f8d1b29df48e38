import DifferentialAnalyzer.Proofs.Machine.Operation

/-! Names do not matter to a machine that runs. Of its topology a tick reads the motor and the order
in which devices react to a shaft, and nothing else. -/

namespace DifferentialAnalyzer

namespace Topology

/-- The motor is the same, and the same devices react to a shaft in the same order. -/
structure ActsAs (t t' : Topology) : Prop where
  motor : t.motor = t'.motor
  reactive : ∀ s, t.reactive s = t'.reactive s

namespace Draft

variable {d d' : Draft} {fs : List Fitting} {t t' : Topology}

theorem Holds.reactive_eq (h : d.Holds fs) (ht : d.build = .ok t) (s : ShaftId) :
    t.reactive s = (((Fitting.allPorts fs).filter (·.shaft = s)).filter (·.role.reacts)).map
      (·.device) := by
  rw [reactive, portRecords_of_build ht, h.ports]

theorem Holds.motor_eq (h : d.Holds fs) (ht : d.build = .ok t) (h' : d'.Holds fs)
    (ht' : d'.build = .ok t') : t.motor = t'.motor := by
  obtain ⟨f, hf, hk⟩ := Option.map_eq_some_iff.mp (h.describes ht).motor
  exact congrArg Id.mk ((h'.describes ht').onlyMotor t.motor.index f hf hk)

/-- Drafts with as many shafts and with the same devices on them are built alike. -/
theorem Holds.exists_actsAs (h : d.Holds fs) (h' : d'.Holds fs)
    (hsize : d.shafts.size = d'.shafts.size) (ht : d.build = .ok t) :
    ∃ t', d'.build = .ok t' ∧ t.ActsAs t' := by
  have haccepted := h.build_isOk_iff.mp ⟨t, ht⟩
  rw [hsize] at haccepted
  obtain ⟨t', ht'⟩ := h'.build_isOk_iff.mpr haccepted
  refine ⟨t', ht', h.motor_eq ht h' ht', fun s => ?_⟩
  rw [h.reactive_eq ht, h'.reactive_eq ht']

end Draft

end Topology

namespace Tick

variable {topology topology' : Topology}

theorem drain_congr (h : topology.ActsAs topology') (count : Nat) (t : Tick) :
    drain topology count t = drain topology' count t := by
  induction count generalizing t with
  | zero => rfl
  | succ count ih =>
    rw [drain, drain]
    cases t.waiting with
    | nil => rfl
    | cons s rest => simp only [h.reactive, ih]

theorem propagate_congr (h : topology.ActsAs topology') (t : Tick) :
    propagate topology t = propagate topology' t := by
  simp only [propagate, h.motor, drain_congr h]

end Tick

namespace Simulator

/-- The same machine but for names. -/
structure Twin (s s' : Simulator) : Prop where
  topology : s.topology.ActsAs s'.topology
  devices : s.devices = s'.devices
  shafts : s.shafts = s'.shafts
  tick : s.tick = s'.tick

namespace Twin

variable {s s' : Simulator}

theorem step (h : s.Twin s') : s.step.1.Twin s'.step.1 ∧ s.step.2 = s'.step.2 := by
  have hpropagated : s.propagated = s'.propagated := by
    rw [propagated, propagated, start, start, h.devices, h.shafts]
    exact Tick.propagate_congr h.topology _
  rw [step_eq, step_eq, hpropagated]
  cases s'.propagated with
  | mk t err =>
    cases err with
    | none => exact ⟨⟨h.topology, rfl, rfl, congrArg (· + 1) h.tick⟩, rfl⟩
    | some e => exact ⟨⟨h.topology, rfl, rfl, h.tick⟩, rfl⟩

theorem run (h : s.Twin s') (count : Nat) :
    (s.run count).1.Twin (s'.run count).1 ∧ (s.run count).2 = (s'.run count).2 := by
  induction count generalizing s s' with
  | zero => exact ⟨h, rfl⟩
  | succ count ih =>
    obtain ⟨hnext, herr⟩ := h.step
    rw [run_succ, run_succ]
    cases hs : s.step with
    | mk t err =>
      cases hs' : s'.step with
      | mk t' err' =>
        rw [hs, hs'] at hnext herr
        obtain rfl : err = err' := herr
        cases err with
        | none => exact ih hnext
        | some e => exact ⟨hnext, rfl⟩

theorem perform (h : s.Twin s') (op : Operation) :
    (s.perform op).1.Twin (s'.perform op).1 ∧ (s.perform op).2 = (s'.perform op).2 := by
  cases op with
  | step => exact ⟨h.step.1, congrArg Response.ofError? h.step.2⟩
  | run count => exact ⟨(h.run count).1, congrArg Response.ofError? (h.run count).2⟩
  | setMotorRotation rotation =>
    simp only [Simulator.perform, setMotorRotation_eq]
    cases requireFinite "motor rotation" rotation with
    | ok r =>
      refine ⟨⟨h.topology, ?_, h.shafts, h.tick⟩, rfl⟩
      simp only [h.devices, h.topology.motor]
    | error e => exact ⟨h, rfl⟩
  | reset =>
    refine ⟨⟨h.topology, ?_, ?_, rfl⟩, rfl⟩
    · simp only [Simulator.perform, Simulator.reset, h.devices]
    · simp only [Simulator.perform, Simulator.reset, h.shafts]

/-- Twins stay twins. -/
theorem after (h : s.Twin s') (ops : List Operation) : (s.after ops).Twin (s'.after ops) := by
  induction ops generalizing s s' with
  | nil => exact h
  | cons op ops ih => exact ih (h.perform op).1

end Twin

end Simulator

/-- Assemblies with as many shafts and with the same devices give twins. -/
theorem Assembly.exists_twin {a a' : Assembly} {fs : List Topology.Fitting}
    (h : a.draft.Holds fs) (h' : a'.draft.Holds fs)
    (hsize : a.draft.shafts.size = a'.draft.shafts.size) (hdevices : a.devices = a'.devices)
    {s : Simulator} (hs : a.build = .ok s) : ∃ s', a'.build = .ok s' ∧ s.Twin s' := by
  obtain ⟨hcheck, t, ht, rfl⟩ := (build_eq_ok_iff a s).mp hs
  obtain ⟨t', ht', hacts⟩ := h.exists_actsAs h' hsize ht
  have hshafts : t.shafts.size = t'.shafts.size := by
    rw [(Topology.Draft.fields_of_build ht).1, (Topology.Draft.fields_of_build ht').1, hsize]
  refine ⟨_, (build_eq_ok_iff a' _).mpr ⟨hdevices ▸ hcheck, t', ht', rfl⟩, hacts, hdevices, ?_, rfl⟩
  rw [Simulator.ofTopology, Simulator.ofTopology, hshafts]

end DifferentialAnalyzer
