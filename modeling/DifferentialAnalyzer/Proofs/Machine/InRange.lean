import DifferentialAnalyzer.Proofs.Machine.Checked
import DifferentialAnalyzer.Proofs.Machine.Writing
import DifferentialAnalyzer.Proofs.Topology.Verdict

/-! No index is out of range. Devices keep the shafts that they were added with, and these were
checked when the machine was built, so that nothing that is done with it uses a shaft or a device
that is not there. -/

namespace DifferentialAnalyzer

namespace Device

theorem resolve_fst_of_isSink {d : Device} (h : d.kind.isSink = true) {id : DeviceId}
    {shafts : Shafts} : (d.resolve id shafts).1 = d := by
  cases d with
  | outputTable t => rfl
  | dial d => rfl
  | _ => cases h

end Device

theorem Shafts.look_eq (shafts : Shafts) {s : ShaftId} (hs : s.index < shafts.size) :
    shafts.look s = some (shafts.get s) := by
  simp [look, get, hs]

/-- A machine whose topology belongs to its devices, whatever they have staged. -/
structure Simulator.Wired (s : Simulator) : Prop where
  inRange : s.topology.InRange
  describes : s.topology.Describes (s.devices.toList.map Device.fitting)
  size : s.shafts.size = s.topology.shafts.size
  deviceShafts : ∀ (i : Nat) (f : Topology.Fitting),
    (s.devices.toList.map Device.fitting)[i]? = some f →
      s.topology.deviceShafts ⟨i⟩ = f.connections.map (·.1)

namespace Tick

/-- A tick of `s` has the shafts of `s`, devices that are connected as those of `s`, and
its sinks. -/
structure Fits (s : Simulator) (t : Tick) : Prop where
  fittings : t.devices.map Device.fitting = s.devices.map Device.fitting
  size : t.shafts.size = s.shafts.size
  sinks : ∀ (k : Nat) (d : Device), d.kind.isSink = true → s.devices[k]? = some d →
    t.devices[k]? = some d

variable {s : Simulator} {t : Tick}

theorem Fits.shaft_lt (h : Fits s t) (hs : s.Wired) {d : Device} (hd : d ∈ t.devices)
    {c : ShaftId × PortRole} (hc : c ∈ d.connections) : c.1.index < t.shafts.size := by
  rw [h.size, hs.size]
  refine hs.describes.accepted.bounded d.fitting ?_ c hc
  rw [← Array.toList_map, ← h.fittings, Array.toList_map]
  exact List.mem_map_of_mem (Array.mem_toList_iff.mpr hd)

theorem Fits.target_lt (h : Fits s t) (hs : s.Wired) {id : DeviceId} {d : Device}
    (hd : t.devices[id.index]? = some d) {x : ShaftId} {v : Float}
    (hr : (d.resolve id t.shafts).2 = .ok (.write x v)) : x.index < t.shafts.size := by
  obtain ⟨c, hc, rfl⟩ := List.mem_map.mp (Device.target_mem_of_resolve hr)
  exact h.shaft_lt hs (Array.mem_of_getElem? hd) hc

theorem Fits.exists_device (h : Fits s t) {id : DeviceId} {f : Topology.Fitting}
    (hf : (s.devices.toList.map Device.fitting)[id.index]? = some f) :
    ∃ d, t.devices[id.index]? = some d := by
  rw [← Array.toList_map, ← h.fittings, Array.getElem?_toList, Array.getElem?_map,
    Option.map_eq_some_iff] at hf
  obtain ⟨d, hd, -⟩ := hf
  exact ⟨d, hd⟩

theorem Fits.replaced (h : Fits s t) {id : DeviceId} {d : Device}
    (hd : t.devices[id.index]? = some d) (shafts : Shafts) : Fits s
      { t with devices := t.devices.setIfInBounds id.index (d.resolve id shafts).1 } := by
  obtain ⟨hlt, hget⟩ := Array.getElem?_eq_some_iff.mp hd
  refine ⟨?_, h.size, fun k e he hk => ?_⟩
  · rw [← h.fittings, Array.map_setIfInBounds, d.fitting_resolve]
    apply Array.ext_getElem?
    intro j
    rw [Array.getElem?_setIfInBounds, Array.getElem?_map]
    by_cases hj : id.index = j
    · subst hj
      simp [hlt, hget]
    · simp [hj]
  · have hk' := h.sinks k e he hk
    rw [Array.getElem?_setIfInBounds]
    by_cases hj : id.index = k
    · subst hj
      obtain rfl : d = e := Option.some.inj (hd.symm.trans hk')
      rw [if_pos rfl, if_pos hlt, Device.resolve_fst_of_isSink he]
    · rw [if_neg hj, hk']

theorem load_apply_le {id : DeviceId} {r : Resolution} {after : Device}
    (hr : ∀ x v, r = .write x v → x.index < t.shafts.size) :
    (apply { t with devices := t.devices.setIfInBounds id.index after } id r).1.load ≤ t.load := by
  cases r with
  | idle => exact Nat.le_refl _
  | unchanged x => exact Nat.le_refl _
  | write x v =>
    have hx := hr x v rfl
    by_cases hready : t.shafts.Ready x
    · have hb : (t.shafts.get x).ready = true := hready
      simp only [apply, ShaftState.resolve?, hb, if_true]
      exact Nat.le_refl _
    · rw [apply_write hready]
      exact Nat.le_of_eq (load_eq_of_ready hx (by simp [Tick.written, Shafts.set]) hready
        (fun y => ready_written hx) rfl)

theorem Fits.apply (h : Fits s t) (id : DeviceId) (r : Resolution) : Fits s (t.apply id r).1 := by
  cases r with
  | idle => exact h
  | unchanged x => exact h
  | write x v =>
    rw [Tick.apply]
    cases (t.shafts.get x).resolve? v (some id) with
    | none => exact h
    | some state => exact ⟨h.fittings, by simpa [Shafts.set] using h.size, h.sinks⟩

theorem checked_write {id : DeviceId} {r : Resolution}
    (hr : ∀ x v, r = .write x v → x.index < t.shafts.size) :
    Checked.write t id r = some (t.apply id r) := by
  cases r with
  | idle => rfl
  | unchanged x => rfl
  | write x v =>
    rw [Checked.write, t.shafts.look_eq (hr x v rfl), Tick.apply]
    simp only [Option.bind_eq_bind, Option.bind_some]
    cases (t.shafts.get x).resolve? v (some id) <;> rfl

/-- A device that is there can be asked, and the tick still fits. -/
theorem Fits.ask (h : Fits s t) (hs : s.Wired) {id : DeviceId}
    {f : Topology.Fitting} (hf : (s.devices.toList.map Device.fitting)[id.index]? = some f) :
    Checked.ask t id = some (t.ask id) ∧ Fits s (t.ask id).1 ∧ (t.ask id).1.load ≤ t.load := by
  obtain ⟨d, hd⟩ := h.exists_device hf
  have hlt : ∀ c ∈ d.connections, c.1.index < t.shafts.size := fun c hc =>
    h.shaft_lt hs (Array.mem_of_getElem? hd) hc
  have hresolve : Checked.resolve t.shafts.look id d = some (d.resolve id t.shafts) :=
    Checked.resolve_eq fun c hc => t.shafts.look_eq (hlt c hc)
  have hfits := h.replaced hd t.shafts
  have hwrite : ∀ r, (d.resolve id t.shafts).2 = .ok r → ∀ x v, r = .write x v →
      x.index < t.shafts.size := by
    rintro _ hr x v rfl
    exact h.target_lt hs hd hr
  rw [Checked.ask, hd, Option.bind_eq_bind, Option.bind_some, hresolve, ask_eq hd]
  simp only [Option.bind_eq_bind, Option.bind_some]
  cases hr : (d.resolve id t.shafts).2 with
  | error e => exact ⟨rfl, hfits, Nat.le_refl _⟩
  | ok r => exact ⟨checked_write (hwrite r hr), hfits.apply id r, load_apply_le (hwrite r hr)⟩

theorem Fits.askAll (h : Fits s t) (hs : s.Wired) {ids : List DeviceId}
    (hids : ∀ id ∈ ids, ∃ f, (s.devices.toList.map Device.fitting)[id.index]? = some f) :
    Checked.askAll t ids = some (t.askAll ids) ∧ Fits s (t.askAll ids).1 ∧
      (t.askAll ids).1.load ≤ t.load := by
  induction ids generalizing t with
  | nil => exact ⟨rfl, h, Nat.le_refl _⟩
  | cons id ids ih =>
    obtain ⟨⟨f, hf⟩, hids⟩ := List.forall_mem_cons.mp hids
    obtain ⟨hask, hfits, hload⟩ := h.ask hs hf
    rw [Checked.askAll, hask, askAll_cons]
    generalize t.ask id = r at hfits hload
    obtain ⟨t', _ | e⟩ := r
    · obtain ⟨hrest, hfits', hload'⟩ := ih hfits hids
      exact ⟨hrest, hfits', Nat.le_trans hload' hload⟩
    · exact ⟨rfl, hfits, hload⟩

theorem Fits.waiting (h : Fits s t) (rest : List ShaftId) : Fits s { t with waiting := rest } :=
  ⟨h.fittings, h.size, h.sinks⟩

/-- As many shafts as may still come to wait are taken up, so that none is left. -/
theorem Fits.drain (hs : s.Wired) {count : Nat} (h : Fits s t) (hload : t.load ≤ count) :
    Checked.drain s.topology count t = some (drain s.topology count t) ∧
      Fits s (drain s.topology count t).1 := by
  induction count generalizing t with
  | zero =>
    have hw : t.waiting = [] := List.eq_nil_of_length_eq_zero (by rw [load] at hload; omega)
    exact ⟨by rw [Checked.drain, if_pos hw, Tick.drain], h⟩
  | succ count ih =>
    cases hw : t.waiting with
    | nil => exact ⟨by simp only [Checked.drain, Tick.drain, hw], by simpa only [Tick.drain, hw]⟩
    | cons x rest =>
      have hids : ∀ id ∈ s.topology.reactive x,
          ∃ f, (s.devices.toList.map Device.fitting)[id.index]? = some f := by
        intro id hid
        obtain ⟨f, hf, -⟩ := (hs.describes.reactive x id).mp hid
        exact ⟨f, hf⟩
      obtain ⟨hask, hfits, hload'⟩ := (h.waiting rest).askAll hs hids
      have hless : load { t with waiting := rest } + 1 = t.load := by
        simp only [load, hw, List.length_cons]
        omega
      rw [drain_cons s.topology count hw]
      simp only [Checked.drain, hw, hs.inRange.reactive, Option.bind_eq_bind, Option.bind_some,
        hask]
      generalize Tick.askAll { t with waiting := rest } (s.topology.reactive x) = r at hfits hload'
      obtain ⟨t', _ | e⟩ := r
      · exact ih hfits (by dsimp only at hload'; omega)
      · exact ⟨rfl, hfits⟩

theorem fits_start (s : Simulator) : Fits s s.start :=
  ⟨rfl, rfl, fun _ _ _ hk => hk⟩

theorem Fits.propagated (hs : s.Wired) :
    Checked.propagate s.topology s.start = some s.propagated ∧ Fits s s.propagated.1 := by
  obtain ⟨f, hf, -⟩ := Option.map_eq_some_iff.mp hs.describes.motor
  obtain ⟨hask, hfits, hload⟩ := (fits_start s).ask hs hf
  rw [Checked.propagate, hask, Simulator.propagated, propagate_eq]
  have hstart := s.load_start_le
  generalize s.start.ask s.topology.motor = r at hfits hload
  obtain ⟨t', _ | e⟩ := r
  · refine hfits.drain hs ?_
    rw [hfits.size]
    exact Nat.le_trans hload hstart
  · exact ⟨rfl, hfits⟩

end Tick

namespace Simulator

theorem Wired.of_maps {s s' : Simulator} (h : s.Wired) (ht : s'.topology = s.topology)
    (hf : s'.devices.map Device.fitting = s.devices.map Device.fitting)
    (hsize : s'.shafts.size = s.shafts.size) : s'.Wired := by
  have hlist : s'.devices.toList.map Device.fitting = s.devices.toList.map Device.fitting := by
    rw [← Array.toList_map, hf, Array.toList_map]
  refine ⟨ht ▸ h.inRange, ?_, by rw [hsize, h.size, ht], ?_⟩
  · rw [hlist, ht]
    exact h.describes
  · rw [hlist, ht]
    exact h.deviceShafts

theorem Wired.conclude {s : Simulator} (h : s.Wired) {r : Tick × Option MachineError}
    (hr : Tick.Fits s r.1) : Checked.conclude s r = some (s.conclude r) := by
  obtain ⟨t, _ | e⟩ := r
  · have hcommit : t.devices.toList.mapM
        (Checked.commit (Shafts.look (t.shafts.map ShaftState.commit))) =
          some (t.devices.toList.map (Device.commit (t.shafts.map ShaftState.commit))) := by
      rw [mapM_eq_some_iff, List.forall₂_map_right_iff, List.forall₂_same]
      intro d hd
      refine Checked.commit_eq fun c hc => Shafts.look_eq _ ?_
      rw [Array.size_map]
      exact hr.shaft_lt h (Array.mem_toList_iff.mp hd) hc
    simp only [Checked.conclude, hcommit, Option.bind_eq_bind, Option.bind_some]
    rw [← Array.toList_map, Array.toArray_toList]
    rfl
  · rfl

theorem Wired.step {s : Simulator} (h : s.Wired) : Checked.step s = some s.step := by
  obtain ⟨hpropagate, hfits⟩ := Tick.Fits.propagated h
  rw [Checked.step, hpropagate, step_eq]
  exact h.conclude hfits

theorem Wired.fittings_step {s : Simulator} (h : s.Wired) :
    s.step.1.devices.map Device.fitting = s.devices.map Device.fitting := by
  rw [step_eq]
  exact fittings_conclude (Tick.Fits.propagated h).2.fittings

theorem kept_wired : Kept Wired where
  step s h := by
    have htopology := topology_conclude s s.propagated
    have hsize := (Tick.Fits.propagated h).2.size
    refine h.of_maps (s.step_eq ▸ htopology) h.fittings_step ?_
    rw [step_eq]
    generalize s.propagated = r at hsize
    obtain ⟨t, _ | e⟩ := r <;> simpa [Simulator.conclude] using hsize
  turn s r h := h.of_maps rfl (fittings_turn ..) rfl
  reset s h := h.of_maps rfl s.fittings_reset (by simp [Simulator.reset])

theorem Wired.run {s : Simulator} (h : s.Wired) (count : Nat) :
    Checked.run count s = some (s.run count) := by
  induction count generalizing s with
  | zero => rfl
  | succ count ih =>
    have hnext := kept_wired.step s h
    rw [Checked.run, h.step, run_succ]
    generalize s.step = r at hnext
    obtain ⟨s', _ | e⟩ := r
    · exact ih hnext
    · rfl

theorem Wired.exists_motor {s : Simulator} (h : s.Wired) :
    ∃ d, s.devices[s.topology.motor.index]? = some d := by
  obtain ⟨f, hf, -⟩ := Option.map_eq_some_iff.mp h.describes.motor
  exact (Tick.fits_start s).exists_device hf

theorem Wired.motorRotation {s : Simulator} (h : s.Wired) :
    Checked.motorRotation s = some s.motorRotation := by
  obtain ⟨d, hd⟩ := h.exists_motor
  rw [Checked.motorRotation, hd, Simulator.motorRotation, hd]
  cases d <;> rfl

theorem Wired.setMotorRotation {s : Simulator} (h : s.Wired) (rotation : Float) :
    Checked.setMotorRotation s rotation = some (s.setMotorRotation rotation) := by
  obtain ⟨d, hd⟩ := h.exists_motor
  rw [Checked.setMotorRotation, setMotorRotation_eq]
  cases requireFinite "motor rotation" rotation with
  | error e => rfl
  | ok r =>
    have hmodify : s.devices.setIfInBounds s.topology.motor.index (turned r d) =
        s.devices.modify s.topology.motor.index (turned r) := by
      apply Array.ext_getElem?
      intro j
      rw [Array.getElem?_setIfInBounds, Array.getElem?_modify]
      by_cases hj : s.topology.motor.index = j
      · subst hj
        obtain ⟨hlt, rfl⟩ := Array.getElem?_eq_some_iff.mp hd
        simp [hlt]
      · simp [hj]
    simp only [hd, Option.bind_eq_bind, Option.bind_some, hmodify]
    rfl

theorem Wired.perform {s : Simulator} (h : s.Wired) (op : Operation) :
    Checked.perform s op = some (s.perform op) := by
  cases op with
  | step =>
    rw [Checked.perform, h.step]
    rfl
  | run count =>
    rw [Checked.perform, h.run]
    rfl
  | setMotorRotation rotation =>
    rw [Checked.perform, h.setMotorRotation, Simulator.perform]
    cases s.setMotorRotation rotation <;> rfl
  | reset => rfl

end Simulator

/-- Only these shafts can be found. -/
def Shafts.only (shafts : Shafts) (known : List ShaftId) : Look :=
  fun s => if s ∈ known then some (shafts.get s) else none

/-- The device reads and writes no shafts but these, all of which are among the first `count`. -/
structure Device.Confined (d : Device) (count : Nat) (known : List ShaftId) : Prop where
  exist : ∀ x ∈ known, x.index < count
  reads : ∀ (id : DeviceId) (shafts : Shafts),
    Checked.resolve (shafts.only known) id d = some (d.resolve id shafts)
  writes : ∀ (id : DeviceId) (shafts : Shafts) (x : ShaftId) (v : Float),
    (d.resolve id shafts).2 = .ok (.write x v) → x ∈ known
  records : ∀ shafts : Shafts, Checked.commit (shafts.only known) d = some (d.commit shafts)

theorem Device.confined {d : Device} {count : Nat}
    (h : ∀ c ∈ d.connections, c.1.index < count) : d.Confined count (d.connections.map (·.1)) := by
  have honly : ∀ shafts : Shafts, ∀ c ∈ d.connections,
      shafts.only (d.connections.map (·.1)) c.1 = some (shafts.get c.1) :=
    fun _ _ hc => if_pos (List.mem_map_of_mem hc)
  exact ⟨List.forall_mem_map.mpr h, fun _ shafts => Checked.resolve_eq (honly shafts),
    fun _ _ _ _ => Device.target_mem_of_resolve, fun shafts => Checked.commit_eq (honly shafts)⟩

namespace Simulator

/-- Whatever comes next stays within the arrays, and the shafts that the topology has for a device
are all that it ever uses. -/
structure InRange (s : Simulator) : Prop where
  topology : s.topology.InRange
  perform : ∀ op, Checked.perform s op = some (s.perform op)
  motorRotation : Checked.motorRotation s = some s.motorRotation
  devices : ∀ (i : Nat) (d : Device), s.devices[i]? = some d →
    d.Confined s.shafts.size (s.topology.deviceShafts ⟨i⟩)

theorem Wired.inRange_self {s : Simulator} (h : s.Wired) : s.InRange where
  topology := h.inRange
  perform := h.perform
  motorRotation := h.motorRotation
  devices i d hd := by
    rw [h.deviceShafts i d.fitting (by simp [hd])]
    exact Device.confined fun _ => (Tick.fits_start s).shaft_lt h (Array.mem_of_getElem? hd)

end Simulator

namespace Assembly

theorem Composed.wired {a : Assembly} (h : a.Composed) {s : Simulator} (hs : a.build = .ok s) :
    s.Wired := by
  obtain ⟨-, topology, ht, rfl⟩ := (build_eq_ok_iff a s).mp hs
  exact ⟨h.holds.inRange_of_build ht, h.holds.describes ht, by simp [Simulator.ofTopology],
    fun _ _ hf => h.holds.deviceShafts ht hf⟩

/-- Once an assembly is built, nothing that is done with the machine uses an index that is out of
range. With a device on a shaft that does not exist it is not built, if its parameters are right. -/
theorem in_range {a : Assembly} (ha : a.Composed) :
    (∀ s, a.build = .ok s → ∀ ops, (s.after ops).InRange) ∧
      (checkParameters a.devices.toList = .ok () → ∀ d ∈ a.devices, ∀ c ∈ d.connections,
        a.draft.shafts.size ≤ c.1.index → ∃ (port : PortId) (p : Topology.Port),
          a.build = .error (.topology (.missingShaft port p.shaft)) ∧
          a.draft.ports[port.index]? = some p ∧ a.draft.shafts.size ≤ p.shaft.index) := by
  constructor
  · intro s hs ops
    exact (Simulator.kept_wired.after (ha.wired hs) ops).inRange_self
  · intro hcheck d hd c hc hlt
    have hmem : d.fitting ∈ a.devices.toList.map Device.fitting :=
      List.mem_map_of_mem (Array.mem_toList_iff.mpr hd)
    obtain ⟨port, p, hbuild, hp, hsize⟩ := ha.holds.missingShaft_of_build hmem hc hlt
    refine ⟨port, p, ?_, ?_, hsize⟩
    · rw [build, hcheck, hbuild]
      rfl
    · rw [← Array.getElem?_toList, ha.holds.ports]
      exact hp

/-- The tripler runs within its arrays, and with a dial on a shaft that it does not have it is not
built. -/
theorem in_range_tripler :
    (∃ s, (ofPieces Piece.tripler).build = .ok s ∧
      Checked.perform s (.run 3) = some (s.perform (.run 3)) ∧
      ∃ d, s.devices[3]? = some d ∧ d.Confined 4 [⟨0⟩, ⟨1⟩, ⟨3⟩]) ∧
    ∃ (port : PortId) (p : Topology.Port),
      ((ofPieces Piece.tripler).addDevice "dial" (.ofDial ⟨4⟩ 0.0)).1.build =
        .error (.topology (.missingShaft port p.shaft)) ∧ 4 ≤ p.shaft.index := by
  have hcomposed := composed_ofPieces Piece.tripler
  constructor
  · obtain ⟨s, hs, d, hd, hsize, hshafts⟩ : ∃ s, (ofPieces Piece.tripler).build = .ok s ∧
        ∃ d, s.devices[3]? = some d ∧ s.shafts.size = 4 ∧
          s.topology.deviceShafts ⟨3⟩ = [⟨0⟩, ⟨1⟩, ⟨3⟩] := ⟨_, rfl, _, rfl, rfl, rfl⟩
    have hrange := (in_range hcomposed).1 s hs []
    refine ⟨s, hs, hrange.perform _, d, hd, ?_⟩
    rw [← hsize, ← hshafts]
    exact hrange.devices 3 d hd
  · obtain ⟨port, p, hbuild, -, hp⟩ :=
      (in_range (hcomposed.device "dial" (.ofDial ⟨4⟩ 0.0))).2 rfl (.ofDial ⟨4⟩ 0.0)
        (by simp [addDevice]) (⟨4⟩, .watch) (by simp [Device.ofDial, Device.connections])
        (by decide +kernel)
    exact ⟨port, p, hbuild, hp⟩

end Assembly

end DifferentialAnalyzer
