import DifferentialAnalyzer.Proofs.Machine.Schedule

/-! How ticks are concluded. A machine that lies between two ticks does so again after a step,
whether the tick is committed or rolled back. -/

namespace DifferentialAnalyzer

namespace Device

theorem fitting_commit (d : Device) (shafts : Shafts) : (d.commit shafts).fitting = d.fitting := by
  cases d with
  | functionTable t =>
    simp only [commit]
    split <;> rfl
  | _ => rfl

theorem fitting_rollback (d : Device) : d.rollback.fitting = d.fitting := by
  cases d <;> rfl

theorem fitting_reset (d : Device) : d.reset.fitting = d.fitting := by
  cases d <;> rfl

theorem atRest_reset (d : Device) : d.reset.AtRest := by
  cases d <;> simp [AtRest, reset, rollback, LevelSound, FunctionTable.LevelSound]

theorem AtRest.of_reset_eq {d : Device} (h : d.reset = d) : d.AtRest :=
  h ▸ d.atRest_reset

theorem AtRest.bare {d : Device} (h : d.AtRest) : d.bare = d.uncached := by
  rw [Device.bare, h.1]

theorem atRest_rollback {d : Device} (h : d.LevelSound) : d.rollback.AtRest := by
  cases d <;> exact ⟨rfl, h⟩

theorem uncached_commit (d : Device) (shafts : Shafts) :
    (d.commit shafts).uncached = (d.uncached.commit shafts).uncached := by
  cases d with
  | functionTable t =>
    cases hs : t.staged <;> simp [commit, uncached, hs]
  | _ => rfl

theorem uncached_reset (d : Device) : d.uncached.reset.uncached = d.reset.uncached := by
  cases d <;> rfl

/-- A table that has staged a position has staged the height there. -/
def StagedSound : Device → Prop
  | .functionTable t => ∀ x y, t.staged = some (x, y) → t.curve.eval x = .ok y
  | _ => True

theorem stagedSound_uncached {d : Device} : d.uncached.StagedSound ↔ d.StagedSound := by
  cases d <;> rfl

theorem AtRest.stagedSound {d : Device} (h : d.AtRest) : d.StagedSound := by
  cases d with
  | functionTable t =>
    intro x y hs
    have hr : ({ t with staged := none } : FunctionTable) = t := by simpa [rollback] using h.1
    rw [← hr] at hs
    exact absurd hs (by simp)
  | _ => trivial

theorem stagedSound_fired (d : Device) (shafts : Shafts) : (d.fired shafts).StagedSound := by
  cases d with
  | functionTable t =>
    intro x y hs
    cases he : t.curve.eval (t.position + (shafts.get t.input).next) with
    | error e => simp [he, Except.toOption] at hs
    | ok z =>
      obtain ⟨rfl, rfl⟩ : t.position + (shafts.get t.input).next = x ∧ z = y := by
        simpa [he, Except.toOption] using hs
      exact he
  | _ => trivial

theorem atRest_commit {d : Device} (hl : d.LevelSound) (hs : d.StagedSound) (shafts : Shafts) :
    (d.commit shafts).AtRest := by
  cases d with
  | functionTable t =>
    cases ht : t.staged with
    | none =>
      have hc : (Device.functionTable t).commit shafts = .functionTable t := by simp [commit, ht]
      rw [hc]
      refine ⟨congrArg Device.functionTable ?_, hl⟩
      rw [← ht]
    | some p =>
      have hc : (Device.functionTable t).commit shafts =
          .functionTable { t with position := p.1, level := some p.2, staged := none } := by
        simp [commit, ht]
      rw [hc]
      refine ⟨rfl, fun y hy => ?_⟩
      rw [← Option.some.inj hy]
      exact hs p.1 p.2 ht
  | _ => exact ⟨rfl, trivial⟩

theorem Stands.stagedSound {d now : Device} {id : DeviceId} {shafts : Shafts}
    (h : d.Stands id shafts now) (hd : d.AtRest) : now.StagedSound := by
  rw [← stagedSound_uncached]
  by_cases hx : ∃ x, shafts.DrivenBy x id
  · rw [h.moved hx, stagedSound_uncached]
    exact stagedSound_fired d shafts
  · rw [h.unmoved (not_exists.mp hx), stagedSound_uncached]
    exact hd.stagedSound

end Device

theorem Shafts.get_map {f : ShaftState → ShaftState} (hf : f .rest = .rest) (shafts : Shafts)
    (x : ShaftId) : Shafts.get (shafts.map f) x = f (shafts.get x) := by
  simp only [Shafts.get, Array.getD_eq_getD_getElem?, Array.getElem?_map]
  cases shafts[x.index]? <;> simp [hf]

theorem Shafts.ext_get {a b : Shafts} (hsize : a.size = b.size)
    (h : ∀ x, a.get x = b.get x) : a = b := by
  apply Array.ext hsize
  intro i ha hb
  simpa [Shafts.get, ha, hb] using h ⟨i⟩

namespace Tick

theorem Running.map_devices {s : Simulator} {t : Tick} (h : Running s t) {α : Type}
    {f g : Device → α} (hfg : ∀ (i : Nat) (d now : Device), s.devices[i]? = some d →
      d.Stands ⟨i⟩ t.shafts now → g now = f d) : t.devices.map g = s.devices.map f := by
  apply Array.ext_getElem?
  intro i
  rw [Array.getElem?_map, Array.getElem?_map]
  cases hd : s.devices[i]? with
  | none =>
    rw [h.getElem?_eq_none hd]
    rfl
  | some d =>
    obtain ⟨now, hnow, hst⟩ := h.stands i d hd
    rw [hnow, Option.map_some, Option.map_some, hfg i d now hd hst]

theorem Running.fittings {s : Simulator} {t : Tick} (h : Running s t) :
    t.devices.map Device.fitting = s.devices.map Device.fitting := by
  exact h.map_devices fun i d now _ hst => Device.fitting_eq_of_bare hst.bare

theorem Running.stands_of_mem {s : Simulator} {t : Tick} (h : Running s t) {now : Device}
    (hm : now ∈ t.devices) :
    ∃ (i : Nat) (d : Device), s.devices[i]? = some d ∧ d.Stands ⟨i⟩ t.shafts now := by
  obtain ⟨i, hi⟩ := Array.mem_iff_getElem?.mp hm
  have hlt := (Array.getElem?_eq_some_iff.mp hi).1
  rw [h.count] at hlt
  obtain ⟨now', hnow, hst⟩ := h.stands i _ (Array.getElem?_eq_getElem hlt)
  obtain rfl : now' = now := Option.some.inj (hnow.symm.trans hi)
  exact ⟨i, _, Array.getElem?_eq_getElem hlt, hst⟩

/-- Rolled back, the shafts are where the tick started. -/
theorem Running.rollback_shafts {s : Simulator} {t : Tick} (h : Running s t) (hs : s.AtRest) :
    t.shafts.map ShaftState.rollback = s.shafts := by
  apply Shafts.ext_get
  · rw [Array.size_map, h.size]
  · intro x
    rw [Shafts.get_map rfl, ShaftState.rollback, h.current, hs.get_eq x]
    rfl

/-- Rolled back, the devices are where the tick started, up to levels found meanwhile. -/
theorem Running.rollback_devices {s : Simulator} {t : Tick} (h : Running s t) (hs : s.AtRest) :
    (t.devices.map Device.rollback).map Device.uncached = s.devices.map Device.uncached := by
  rw [Array.map_map]
  refine h.map_devices fun i d now hd hst => ?_
  exact hst.bare.trans (hs.devices d (Array.mem_of_getElem? hd)).bare

end Tick

namespace Simulator

/-- Ends a tick: without an error it is committed, otherwise rolled back. -/
def conclude (s : Simulator) : Tick × Option MachineError → Simulator × Option MachineError
  | (t, none) =>
    ({ s with
      devices := t.devices.map (Device.commit (t.shafts.map ShaftState.commit))
      shafts := t.shafts.map ShaftState.commit
      tick := s.tick + 1 }, none)
  | (t, some e) =>
    ({ s with
      devices := t.devices.map Device.rollback
      shafts := t.shafts.map ShaftState.rollback }, some e)

theorem step_eq (s : Simulator) : s.step = s.conclude s.propagated := by
  unfold step conclude propagated start
  rfl

theorem conclude_snd (s : Simulator) (r : Tick × Option MachineError) :
    (s.conclude r).2 = r.2 := by
  obtain ⟨t, _ | e⟩ := r <;> rfl

theorem AtRest.of_maps {s s' : Simulator} (hs : s.AtRest) (ht : s'.topology = s.topology)
    (hf : s'.devices.map Device.fitting = s.devices.map Device.fitting)
    (hsize : s'.shafts.size = s.shafts.size)
    (hshafts : ∀ x ∈ s'.shafts, x = .ofRotation x.current)
    (hdevices : ∀ d ∈ s'.devices, d.AtRest) : s'.AtRest := by
  refine ⟨?_, by rw [hsize, hs.size, ht], hshafts, hdevices⟩
  rw [← Array.toList_map, hf, ht, Array.toList_map]
  exact hs.describes

theorem fittings_conclude {s : Simulator} {r : Tick × Option MachineError}
    (h : r.1.devices.map Device.fitting = s.devices.map Device.fitting) :
    (s.conclude r).1.devices.map Device.fitting = s.devices.map Device.fitting := by
  rw [← h]
  obtain ⟨t, _ | e⟩ := r
  · simp only [conclude, Array.map_map]
    exact congrArg (t.devices.map ·) (funext fun d => d.fitting_commit _)
  · simp only [conclude, Array.map_map]
    exact congrArg (t.devices.map ·) (funext fun d => d.fitting_rollback)

theorem AtRest.conclude {s : Simulator} (hs : s.AtRest) {r : Tick × Option MachineError}
    (h : Tick.Running s r.1) : (s.conclude r).1.AtRest := by
  have hf := fittings_conclude h.fittings
  obtain ⟨t, _ | e⟩ := r
  · refine hs.of_maps rfl hf (by simpa [Simulator.conclude] using h.size) ?_ ?_
    · intro x hx
      obtain ⟨y, -, rfl⟩ := Array.mem_map.mp hx
      rfl
    · intro x hx
      obtain ⟨now, hnow, rfl⟩ := Array.mem_map.mp hx
      obtain ⟨i, d, hd, hst⟩ := h.stands_of_mem hnow
      exact Device.atRest_commit hst.level
        (hst.stagedSound (hs.devices d (Array.mem_of_getElem? hd))) _
  · refine hs.of_maps rfl hf (by simpa [Simulator.conclude] using h.size) ?_ ?_
    · intro x hx
      obtain ⟨y, -, rfl⟩ := Array.mem_map.mp hx
      rfl
    · intro x hx
      obtain ⟨now, hnow, rfl⟩ := Array.mem_map.mp hx
      obtain ⟨i, d, hd, hst⟩ := h.stands_of_mem hnow
      exact Device.atRest_rollback hst.level

/-- The machine lies between two ticks and is wired as `s` is. -/
structure Continues (s s' : Simulator) : Prop where
  rest : s'.AtRest
  topology : s'.topology = s.topology
  fittings : s'.devices.map Device.fitting = s.devices.map Device.fitting

theorem Continues.trans {s s' s'' : Simulator} (h : s.Continues s') (h' : s'.Continues s'') :
    s.Continues s'' :=
  ⟨h'.rest, h'.topology.trans h.topology, h'.fittings.trans h.fittings⟩

theorem AtRest.continues {s : Simulator} (h : s.AtRest) : s.Continues s :=
  ⟨h, rfl, rfl⟩

theorem topology_conclude (s : Simulator) (r : Tick × Option MachineError) :
    (s.conclude r).1.topology = s.topology := by
  obtain ⟨t, _ | e⟩ := r <;> rfl

theorem AtRest.step {s : Simulator} (h : s.AtRest) : s.Continues s.step.1 := by
  have hr := ((scheduled_propagated h).ended h).running
  rw [step_eq]
  exact ⟨h.conclude hr, topology_conclude s _, fittings_conclude hr.fittings⟩

theorem run_succ (s : Simulator) (count : Nat) : s.run (count + 1) =
    match s.step with
    | (s', none) => s'.run count
    | failed => failed := rfl

end Simulator

end DifferentialAnalyzer
