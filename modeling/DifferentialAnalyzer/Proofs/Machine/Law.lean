import DifferentialAnalyzer.Proofs.Machine.Operation

/-! The laws of the devices. When a tick ends without an error all of them hold at once on the
shafts that are about to be committed. -/

namespace DifferentialAnalyzer

namespace Device

/-- Both shafts are resolved or none is; of two, the device has resolved one from the other. -/
def LinkLaw (id : DeviceId) (after : Shafts) (a b : ShaftId) (forward backward : Float → Float) :
    Prop :=
  (after.Ready a ↔ after.Ready b) ∧ (after.Ready a →
    after.DrivenBy b id ∧ ¬ after.DrivenBy a id ∧
      (after.get b).next = forward (after.get a).next ∨
    after.DrivenBy a id ∧ ¬ after.DrivenBy b id ∧
      (after.get a).next = backward (after.get b).next)

/-- None, one or all of the shafts are resolved; of three, the device has resolved one from the
others. -/
def SumLaw (id : DeviceId) (after : Shafts) (a sum b : ShaftId) : Prop :=
  [a, sum, b].countP (after.Ready ·) ∈ [0, 1, 3] ∧
  (after.Ready a → after.Ready sum → after.Ready b →
    after.DrivenBy a id ∧ ¬ after.DrivenBy sum id ∧ ¬ after.DrivenBy b id ∧
      (after.get a).next = (after.get sum).next - (after.get b).next ∨
    after.DrivenBy sum id ∧ ¬ after.DrivenBy a id ∧ ¬ after.DrivenBy b id ∧
      (after.get sum).next = (after.get a).next + (after.get b).next ∨
    after.DrivenBy b id ∧ ¬ after.DrivenBy a id ∧ ¬ after.DrivenBy sum id ∧
      (after.get b).next = (after.get sum).next - (after.get a).next)

/-- The device has resolved the output exactly when the input is resolved, from its rotation. -/
def OutputLaw (id : DeviceId) (after : Shafts) (input output : ShaftId)
    (f : Float → Except ExprError Float) : Prop :=
  (after.DrivenBy output id ↔ after.Ready input) ∧
    (after.Ready input → f (after.get input).next = .ok (after.get output).next)

/-- The law of a device that stood as given before the tick. -/
def Law (id : DeviceId) (before after : Shafts) : Device → Prop
  | .motor shaft rotation reversed => after.DrivenBy shaft id ∧
    (after.get shaft).next = if reversed then -rotation else rotation
  | .gear a b => LinkLaw id after a b (fun v => v) fun v => v
  | .gearPair a b factor => LinkLaw id after a b (· * factor) (· / factor)
  | .crossConnect a b reversed =>
    LinkLaw id after a b ((if reversed then -1.0 else 1.0) * ·)
      ((if reversed then -1.0 else 1.0) * ·)
  | .differential a sum b => SumLaw id after a sum b
  | .multiplier input output factor => OutputLaw id after input output fun x => .ok (x * factor)
  | .integrator i => OutputLaw id after i.input i.output fun turn =>
    let value := (i.disk + (before.get i.integrand).current) * turn
    .ok (if i.reversed then -value else value)
  | .functionTable t => OutputLaw id after t.input t.output fun turn => do
    let old ← t.curve.eval t.position
    let new ← t.curve.eval (t.position + turn)
    .ok (new - old)
  | .outputTable _ => ∀ x, ¬ after.DrivenBy x id
  | .dial _ => ∀ x, ¬ after.DrivenBy x id

/-- A device in a tick that has ended: if it is enabled it has resolved a shaft, only one, and by
one of its paths. -/
structure Fired (d : Device) (id : DeviceId) (after : Shafts) : Prop where
  fires : d.Enabled after.Ready → ∃ x, after.DrivenBy x id
  path : ∀ x, after.DrivenBy x id → ∃ p ∈ d.paths, p.target = x ∧ p.Open after.Ready ∧
    d.rotation after x = .ok (after.get x).next
  one : ∀ x y, after.DrivenBy x id → after.DrivenBy y id → x = y

namespace Fired

variable {d : Device} {id : DeviceId} {after : Shafts}

theorem linkLaw {a b : ShaftId} {forward backward : Float → Float} (h : d.Fired id after)
    (hp : d.paths = [⟨[a], b⟩, ⟨[b], a⟩]) (hne : a ≠ b)
    (hfwd : d.rotation after b = .ok (forward (after.get a).next))
    (hbwd : d.rotation after a = .ok (backward (after.get b).next)) :
    LinkLaw id after a b forward backward := by
  have hall : after.Ready a ∨ after.Ready b → (after.Ready a ∧ after.Ready b) ∧
      (after.DrivenBy b id ∧ ¬ after.DrivenBy a id ∧
        (after.get b).next = forward (after.get a).next ∨
      after.DrivenBy a id ∧ ¬ after.DrivenBy b id ∧
        (after.get a).next = backward (after.get b).next) := by
    intro hr
    have hen : d.Enabled after.Ready := by
      rw [Enabled, hp]
      simpa [Path.Open] using hr
    obtain ⟨x, hx⟩ := h.fires hen
    obtain ⟨p, hm, rfl, ho, hv⟩ := h.path x hx
    rw [hp] at hm
    rcases List.mem_pair.mp hm with rfl | rfl
    · have ha : after.Ready a := ho a (by simp)
      exact ⟨⟨ha, hx.1⟩, .inl ⟨hx, fun hy => hne (h.one a b hy hx),
        Except.ok.inj (hv.symm.trans hfwd)⟩⟩
    · have hb : after.Ready b := ho b (by simp)
      exact ⟨⟨hx.1, hb⟩, .inr ⟨hx, fun hy => hne (h.one a b hx hy),
        Except.ok.inj (hv.symm.trans hbwd)⟩⟩
  exact ⟨⟨fun ha => (hall (.inl ha)).1.2, fun hb => (hall (.inr hb)).1.1⟩,
    fun ha => (hall (.inl ha)).2⟩

theorem sumLaw {a sum b : ShaftId} (h : (Device.differential a sum b).Fired id after)
    (hd : (Device.differential a sum b).Distinct) : SumLaw id after a sum b := by
  have hne : a ≠ sum ∧ a ≠ b ∧ sum ≠ b := by
    have hn : [a, sum, b].Nodup := hd
    simpa [and_assoc] using hn
  obtain ⟨has, hab, hsb⟩ := hne
  have hall : (Device.differential a sum b).Enabled after.Ready →
      (after.Ready a ∧ after.Ready sum ∧ after.Ready b) ∧
      (after.DrivenBy a id ∧ ¬ after.DrivenBy sum id ∧ ¬ after.DrivenBy b id ∧
        (after.get a).next = (after.get sum).next - (after.get b).next ∨
      after.DrivenBy sum id ∧ ¬ after.DrivenBy a id ∧ ¬ after.DrivenBy b id ∧
        (after.get sum).next = (after.get a).next + (after.get b).next ∨
      after.DrivenBy b id ∧ ¬ after.DrivenBy a id ∧ ¬ after.DrivenBy sum id ∧
        (after.get b).next = (after.get sum).next - (after.get a).next) := by
    intro hen
    obtain ⟨x, hx⟩ := h.fires hen
    have hother : ∀ y, x ≠ y → ¬ after.DrivenBy y id := fun y hne hy => hne (h.one x y hx hy)
    obtain ⟨p, hm, rfl, ho, hv⟩ := h.path x hx
    simp only [paths, List.mem_cons, List.not_mem_nil, or_false] at hm
    rcases hm with rfl | rfl | rfl
    · have hn : after.Ready sum ∧ after.Ready b := by simpa [Path.Open] using ho
      have he : (after.get sum).next - (after.get b).next = (after.get a).next := by
        simpa [rotation] using hv
      exact ⟨⟨hx.1, hn⟩, .inl ⟨hx, hother sum has, hother b hab, he.symm⟩⟩
    · have hn : after.Ready a ∧ after.Ready b := by simpa [Path.Open] using ho
      have he : (after.get a).next + (after.get b).next = (after.get sum).next := by
        simpa [rotation, has.symm] using hv
      exact ⟨⟨hn.1, hx.1, hn.2⟩, .inr (.inl ⟨hx, hother a has.symm, hother b hsb, he.symm⟩)⟩
    · have hn : after.Ready a ∧ after.Ready sum := by simpa [Path.Open] using ho
      have he : (after.get sum).next - (after.get a).next = (after.get b).next := by
        simpa [rotation, hab.symm, hsb.symm] using hv
      exact ⟨⟨hn.1, hn.2, hx.1⟩,
        .inr (.inr ⟨hx, hother a hab.symm, hother sum hsb.symm, he.symm⟩)⟩
  have htwo : after.Ready sum ∧ after.Ready b ∨ after.Ready a ∧ after.Ready b ∨
      after.Ready a ∧ after.Ready sum → (Device.differential a sum b).Enabled after.Ready := by
    intro hr
    simpa [Enabled, paths, Path.Open] using hr
  refine ⟨?_, fun ha hs _ => (hall (htwo (.inr (.inr ⟨ha, hs⟩)))).2⟩
  by_cases hen : (Device.differential a sum b).Enabled after.Ready
  · obtain ⟨⟨ha, hs, hb⟩, -⟩ := hall hen
    simp [ha, hs, hb]
  · -- No two of the shafts are resolved.
    have hn := mt htwo hen
    by_cases ha : after.Ready a <;> by_cases hs : after.Ready sum <;>
      by_cases hb : after.Ready b <;> simp_all

theorem outputLaw {input output : ShaftId} {f : Float → Except ExprError Float}
    (h : d.Fired id after) (hp : d.paths = [⟨[input], output⟩])
    (hf : d.rotation after output = f (after.get input).next) :
    OutputLaw id after input output f := by
  have hdrive : after.Ready input → after.DrivenBy output id := by
    intro hr
    have hen : d.Enabled after.Ready := by
      rw [Enabled, hp]
      simpa [Path.Open] using hr
    obtain ⟨x, hx⟩ := h.fires hen
    obtain ⟨p, hm, rfl, -⟩ := h.path x hx
    rw [hp, List.mem_singleton] at hm
    rwa [hm] at hx
  have hpath : after.DrivenBy output id → after.Ready input ∧
      f (after.get input).next = .ok (after.get output).next := by
    intro hx
    obtain ⟨p, hm, -, ho, hv⟩ := h.path output hx
    rw [hp, List.mem_singleton] at hm
    exact ⟨ho input (by simp [hm]), hf.symm.trans hv⟩
  exact ⟨⟨fun hx => (hpath hx).1, hdrive⟩, fun hr => (hpath (hdrive hr)).2⟩

theorem silent (h : d.Fired id after) (hp : d.paths = []) (x : ShaftId) :
    ¬ after.DrivenBy x id := by
  intro hx
  obtain ⟨p, hm, -⟩ := h.path x hx
  simp [hp] at hm

theorem law (h : d.Fired id after) (hd : d.Distinct) {before : Shafts}
    (hc : ∀ x, (after.get x).current = (before.get x).current) : d.Law id before after := by
  cases d with
  | motor shaft rotation reversed =>
    obtain ⟨x, hx⟩ := h.fires ⟨⟨[], shaft⟩, by simp [paths], by simp [Path.Open]⟩
    obtain ⟨p, hm, rfl, -, hv⟩ := h.path x hx
    obtain rfl : p = ⟨[], shaft⟩ := by simpa [paths] using hm
    exact ⟨hx, (Except.ok.inj hv).symm⟩
  | gear a b =>
    have hne : a ≠ b := by simpa using (show [a, b].Nodup from hd)
    rw [Law]
    exact h.linkLaw rfl hne (by simp [rotation]) (by simp [rotation, hne])
  | gearPair a b factor =>
    have hne : a ≠ b := by simpa using (show [a, b].Nodup from hd)
    rw [Law]
    exact h.linkLaw rfl hne (by simp [rotation]) (by simp [rotation, hne])
  | crossConnect a b reversed =>
    have hne : a ≠ b := by simpa using (show [a, b].Nodup from hd)
    rw [Law]
    exact h.linkLaw rfl hne (by simp [rotation]) (by simp [rotation, hne])
  | differential a sum b => exact h.sumLaw hd
  | multiplier input output factor =>
    rw [Law]
    exact h.outputLaw rfl rfl
  | integrator i =>
    rw [Law]
    exact h.outputLaw rfl (by simp only [rotation, hc])
  | functionTable t =>
    rw [Law]
    exact h.outputLaw rfl rfl
  | outputTable t => exact h.silent rfl
  | dial x => exact h.silent rfl

end Fired

end Device

theorem Tick.Ended.fired {s : Simulator} {r : Tick × Option MachineError} (h : Tick.Ended s r)
    (hr : r.2 = none) {i : Nat} {d : Device} (hd : s.devices[i]? = some d) :
    d.Fired ⟨i⟩ r.1.shafts where
  fires := h.served hr ⟨i⟩ d hd
  path _ hx := h.running.used hd hx
  one x y := h.running.drivesOne x y ⟨i⟩

/-- All laws hold in the tick, no shaft turns without a device, and the step publishes the tick. -/
structure Simulator.Lawful (s : Simulator) (t : Tick) : Prop where
  law : ∀ (i : Nat) (d : Device), s.devices[i]? = some d → d.Law ⟨i⟩ s.shafts t.shafts
  driven : ∀ x, t.shafts.Ready x → ∃ id d, s.devices[id.index]? = some d ∧ t.shafts.DrivenBy x id
  untouched : ∀ x, ¬ t.shafts.Ready x → t.shafts.get x = s.shafts.get x
  published : s.step.1.shafts = t.shafts.map ShaftState.commit

/-- Whatever was done with a machine before, a step without an error propagates to a state in which
the laws of all devices hold at once. -/
theorem Simulator.lawful_step {s : Simulator} (h : s.Built) (ops : List Operation)
    (hok : (s.after ops).step.2 = none) : (s.after ops).Lawful (s.after ops).propagated.1 := by
  have hs := (h.atRest.after ops).rest
  have hend := (scheduled_propagated hs).ended hs
  rw [step_eq, conclude_snd] at hok
  refine ⟨fun i d hd => ?_, fun x hx => ?_, hend.running.untouched, ?_⟩
  · exact (hend.fired hok hd).law (hs.distinct (Array.mem_of_getElem? hd)) hend.running.current
  · obtain ⟨id, hid⟩ := hend.running.attributed x hx
    obtain ⟨d, -, hd, -⟩ := hend.running.path hid
    exact ⟨id, d, hd, hid⟩
  · rw [step_eq]
    cases hp : (s.after ops).propagated with
    | mk t err =>
      obtain rfl : err = none := by simpa [hp] using hok
      rfl

theorem Simulator.lawful_step_tripler : ∃ s : Simulator, s.Built ∧
    (s.after [.step, .setMotorRotation (-0.5)]).step.2 = none ∧
    (s.after [.step, .setMotorRotation (-0.5)]).Lawful
      (s.after [.step, .setMotorRotation (-0.5)]).propagated.1 := by
  have hb : ∃ s, (Assembly.ofPieces Piece.tripler).build = .ok s ∧
      (s.after [.step, .setMotorRotation (-0.5)]).step.2 = none := ⟨_, rfl, by decide +kernel⟩
  obtain ⟨s, hs, hok⟩ := hb
  exact ⟨s, ⟨_, hs⟩, hok, lawful_step ⟨_, hs⟩ _ hok⟩

end DifferentialAnalyzer
