import DifferentialAnalyzer.Proofs.Fallible
import DifferentialAnalyzer.Proofs.Machine.Flow
import DifferentialAnalyzer.Proofs.Machine.Renewal

/-! The errors of a running machine: a shaft that is resolved twice, or the curve of a table. A
machine that was not built with a curve never gives an error of it. -/

namespace DifferentialAnalyzer

variable {P : ExprError → Prop}

/-- Where the device follows a curve, the errors of the curve satisfy `P`. -/
def Device.FailsWith (P : ExprError → Prop) : Device → Prop
  | .functionTable t => ∀ x err, t.curve.eval x = .error err → P err
  | _ => True

theorem Device.failsWith_anew (r : Float) (d : Device) :
    (d.anew r).FailsWith P ↔ d.FailsWith P := by
  cases d <;> rfl

theorem Device.FailsWith.of_rotation {d : Device} (h : d.FailsWith P) {shafts : Shafts}
    {target : ShaftId} {err : ExprError} (he : d.rotation shafts target = .error err) : P err := by
  cases d with
  | functionTable t =>
    rcases bind_eq_error_iff.mp he with he | ⟨old, -, he⟩
    · exact h _ _ he
    · rcases bind_eq_error_iff.mp he with he | ⟨new, -, he⟩
      · exact h _ _ he
      · cases he
  | _ => cases he

/-- An error of a tick, in which a cause satisfies `P`. -/
inductive RunError (P : ExprError → Prop) : MachineError → Prop
  | duplicate (x : ShaftId) (id : DeviceId) : RunError P (.duplicateResolution x id)
  | expression (id : DeviceId) {cause : ExprError} (h : P cause) : RunError P (.expression id cause)

namespace Simulator

variable {s : Simulator}

theorem SameMake.failsWith {s' : Simulator} (h : s.SameMake s')
    (hd : ∀ d ∈ s.devices, d.FailsWith P) : ∀ d ∈ s'.devices, d.FailsWith P := by
  intro d hmem
  -- Made anew, a device has the same curve, and the devices of both machines are the same.
  have hanew := Array.mem_map_of_mem (f := Device.anew 0.0) hmem
  rw [h.devices] at hanew
  obtain ⟨d', hd', he⟩ := Array.mem_map.mp hanew
  rw [← d.failsWith_anew 0.0, ← he, d'.failsWith_anew]
  exact hd d' hd'

theorem AtRest.runError_of_step (h : s.AtRest) (hd : ∀ d ∈ s.devices, d.FailsWith P)
    {e : MachineError} (he : s.step.2 = some e) : RunError P e := by
  rw [step_snd] at he
  cases ((scheduled_propagated h).ended h).stuck e he with
  | expression hdev hp ho ht hv =>
    exact .expression _ ((hd _ (Array.mem_of_getElem? hdev)).of_rotation hv)
  | duplicate hdev hp hen ht => exact .duplicate _ _

theorem AtRest.runError_of_perform (h : s.AtRest) (hd : ∀ d ∈ s.devices, d.FailsWith P)
    {op : Operation} {e : MachineError} (he : (s.perform op).2 = .failed e) : RunError P e := by
  cases op with
  | step => exact h.runError_of_step hd (Response.ofError?_eq_failed_iff.mp he)
  | run count =>
    obtain ⟨done, -, -, hfail, -⟩ :=
      exists_of_run_failed (Response.ofError?_eq_failed_iff.mp he)
    have hmake := s.kept_sameMake.run h.sameMake done
    exact hmake.continues.rest.runError_of_step (hmake.failsWith hd) hfail
  | setMotorRotation rotation =>
    rw [Simulator.perform] at he
    split at he <;> cases he
  | reset => cases he

end Simulator

end DifferentialAnalyzer
