import DifferentialAnalyzer.Proofs.Machine.Abort

/-! Going back to the start. Whatever a machine has done, a reset makes it the machine that would be
built from the same shafts and devices, its motor turning as it does now. -/

namespace DifferentialAnalyzer

namespace Device

/-- The device made once more with the same parameters, a motor with this rotation. -/
def anew (rotation : Float) : Device → Device
  | .motor shaft _ reversed => .motor shaft rotation reversed
  | .integrator i => .ofIntegrator i.input i.integrand i.output i.initial i.reversed
  | .functionTable t => .ofCurve t.input t.output t.curve t.initial
  | .outputTable t => .outputTable (.ofShafts t.x t.y1 t.y2 t.initialX t.initialY1 t.initialY2)
  | .dial d => .ofDial d.shaft d.initial
  | d => d

/-- The device is as it was made and has not run yet. -/
def New (d : Device) : Prop :=
  ∃ rotation, d.anew rotation = d

theorem anew_eq (r : Float) (d : Device) : d.anew r = Simulator.turned r d.reset := by
  cases d <;> rfl

theorem reset_anew (r : Float) (d : Device) : (d.anew r).reset = d.anew r := by
  cases d <;> rfl

theorem New.reset_eq {d : Device} (h : d.New) : d.reset = d := by
  obtain ⟨r, h⟩ := h
  rw [← h, reset_anew]

theorem fitting_anew (r : Float) (d : Device) : (d.anew r).fitting = d.fitting := by
  rw [anew_eq, Simulator.fitting_turned, fitting_reset]

theorem checkParameters_anew {r : Float} {d : Device} (h : d.checkParameters = .ok ())
    (hr : r.isFinite = true) : (d.anew r).checkParameters = .ok () := by
  cases d with
  | motor shaft rotation reversed =>
    simp [anew, checkParameters, requireFinite, DifferentialAnalyzer.requireFinite, hr]
  | _ => exact h

theorem anew_bare (r : Float) (d : Device) : d.bare.anew r = d.anew r := by
  cases d <;> rfl

theorem anew_commit (r : Float) (shafts : Shafts) (d : Device) :
    (d.commit shafts).anew r = d.anew r := by
  cases d with
  | functionTable t =>
    simp only [commit]
    split <;> rfl
  | _ => rfl

theorem anew_turned (r r' : Float) (d : Device) :
    (Simulator.turned r' d).anew r = d.anew r := by
  cases d <;> rfl

theorem anew_reset (r : Float) (d : Device) : d.reset.anew r = d.anew r := by
  cases d <;> rfl

theorem bare_rollback (d : Device) : d.rollback.bare = d.bare := by
  cases d <;> rfl

/-- How far a motor turns in a tick. -/
def rotation? : Device → Option Float
  | .motor _ rotation _ => some rotation
  | _ => none

theorem rotation?_bare (d : Device) : d.bare.rotation? = d.rotation? := by
  cases d <;> rfl

theorem rotation?_commit (shafts : Shafts) (d : Device) :
    (d.commit shafts).rotation? = d.rotation? := by
  cases d with
  | functionTable t =>
    simp only [commit]
    split <;> rfl
  | _ => rfl

theorem rotation?_reset (d : Device) : d.reset.rotation? = d.rotation? := by
  cases d <;> rfl

theorem finite_of_rotation?_eq_some {d : Device} (h : d.checkParameters = .ok ()) {r : Float}
    (hr : d.rotation? = some r) : r.isFinite = true := by
  cases d with
  | motor shaft rotation reversed =>
    obtain rfl := Option.some.inj hr
    by_contra hn
    simp [checkParameters, requireFinite, DifferentialAnalyzer.requireFinite, hn] at h
  | _ => cases hr

theorem turned_of_kind_ne {d : Device} (h : d.kind ≠ .motor) (r : Float) :
    Simulator.turned r d = d := by
  cases d with
  | motor shaft rotation reversed => exact absurd rfl h
  | _ => rfl

end Device

namespace Simulator

/-- Nothing else about a device changes in a tick than what it stages and commits. -/
theorem AtRest.map_step {s : Simulator} (h : s.AtRest) {α : Type} {f : Device → α}
    (hbare : ∀ d, f d.bare = f d) (hcommit : ∀ shafts d, f (d.commit shafts) = f d) :
    s.step.1.devices.map f = s.devices.map f := by
  have hrun := ((scheduled_propagated h).ended h).running
  have hkept : s.propagated.1.devices.map f = s.devices.map f :=
    hrun.map_devices fun i d now _ hst => by rw [← hbare, hst.bare, hbare]
  rw [← hkept, step_eq]
  cases s.propagated with
  | mk t err =>
    cases err with
    | none =>
      simp only [Simulator.conclude, Array.map_map]
      exact congrArg (t.devices.map ·) (funext fun d => hcommit _ d)
    | some e =>
      simp only [Simulator.conclude, Array.map_map]
      refine congrArg (t.devices.map ·) (funext fun d => ?_)
      rw [Function.comp_apply, ← hbare, Device.bare_rollback, hbare]

/-- The machine with another rotation of its motor. -/
def withRotation (s : Simulator) (rotation : Float) : Simulator :=
  { s with devices := s.devices.modify s.topology.motor.index (turned rotation) }

@[simp] theorem tick_withRotation (s : Simulator) (rotation : Float) :
    (s.withRotation rotation).tick = s.tick :=
  rfl

theorem AtRest.exists_motor {s : Simulator} (h : s.AtRest) : ∃ shaft reversed,
    s.devices[s.topology.motor.index]? = some (.motor shaft s.motorRotation reversed) := by
  have hm := h.describes.motor
  simp only [List.getElem?_map, Option.map_map, Option.map_eq_some_iff, Array.getElem?_toList] at hm
  obtain ⟨d, hd, hk⟩ := hm
  cases d with
  | motor shaft rotation reversed =>
    have hr : s.motorRotation = rotation := by simp [motorRotation, hd]
    exact ⟨shaft, reversed, hr ▸ hd⟩
  | _ => cases hk

theorem motorRotation_eq (s : Simulator) :
    s.motorRotation =
      ((s.devices.map Device.rotation?)[s.topology.motor.index]?.join).getD 0.0 := by
  rw [motorRotation, Array.getElem?_map]
  cases s.devices[s.topology.motor.index]? with
  | none => rfl
  | some d => cases d <;> rfl

theorem motorRotation_congr {s s' : Simulator} (ht : s'.topology = s.topology)
    (hd : s'.devices.map Device.rotation? = s.devices.map Device.rotation?) :
    s'.motorRotation = s.motorRotation := by
  rw [motorRotation_eq, motorRotation_eq, ht, hd]

theorem AtRest.motorRotation_step {s : Simulator} (h : s.AtRest) :
    s.step.1.motorRotation = s.motorRotation :=
  motorRotation_congr h.step.topology
    (h.map_step Device.rotation?_bare Device.rotation?_commit)

theorem AtRest.motorRotation_run {s : Simulator} (h : s.AtRest) (count : Nat) :
    (s.run count).1.motorRotation = s.motorRotation := by
  induction count generalizing s with
  | zero => rfl
  | succ count ih =>
    have hstep := h.motorRotation_step
    have hrest := h.step.rest
    rw [run_succ]
    cases hs : s.step with
    | mk s' err =>
      rw [hs] at hstep hrest
      cases err with
      | none => exact (ih hrest).trans hstep
      | some e => exact hstep

theorem motorRotation_reset (s : Simulator) : s.reset.motorRotation = s.motorRotation := by
  refine motorRotation_congr rfl ?_
  rw [reset, Array.map_map]
  exact congrArg (s.devices.map ·) (funext Device.rotation?_reset)

theorem AtRest.motorRotation_withRotation {s : Simulator} (h : s.AtRest) (r : Float) :
    (s.withRotation r).motorRotation = r := by
  obtain ⟨shaft, reversed, hd⟩ := h.exists_motor
  generalize s.motorRotation = rotation at hd
  simp [motorRotation, withRotation, Array.getElem?_modify, hd, turned]

theorem withRotation_withRotation (s : Simulator) (a b : Float) :
    (s.withRotation a).withRotation b = s.withRotation b := by
  have hd : ∀ d, turned b (turned a d) = turned b d := by
    intro d
    cases d <;> rfl
  have hm : (s.devices.modify s.topology.motor.index (turned a)).modify
      s.topology.motor.index (turned b) =
      s.devices.modify s.topology.motor.index (turned b) := by
    apply Array.ext_getElem?
    intro i
    simp only [Array.getElem?_modify]
    split
    · cases s.devices[i]? <;> simp [hd]
    · rfl
  simp only [withRotation, hm]

theorem AtRest.withRotation_motorRotation {s : Simulator} (h : s.AtRest) :
    s.withRotation s.motorRotation = s := by
  obtain ⟨shaft, reversed, hd⟩ := h.exists_motor
  have hm : s.devices.modify s.topology.motor.index (turned s.motorRotation) = s.devices := by
    apply Array.ext_getElem?
    intro i
    rw [Array.getElem?_modify]
    split
    next hi =>
      subst hi
      rw [hd]
      rfl
    · rfl
  rw [withRotation, hm]

/-- No other device is a motor. -/
theorem AtRest.map_turned {s : Simulator} (h : s.AtRest) (r : Float) :
    s.devices.map (turned r) = (s.withRotation r).devices := by
  apply Array.ext_getElem?
  intro i
  rw [Array.getElem?_map, withRotation, Array.getElem?_modify]
  split
  · rfl
  next hi =>
    cases hd : s.devices[i]? with
    | none => rfl
    | some d =>
      have hk : d.kind ≠ .motor := fun hk =>
        hi (h.describes.onlyMotor i d.fitting (by simp [hd]) hk).symm
      rw [Option.map_some, Device.turned_of_kind_ne hk]

/-- The machine lies between two ticks and consists of the same shafts and devices as `s`. -/
structure SameMake (s s' : Simulator) : Prop where
  continues : s.Continues s'
  devices : ∀ r, s'.devices.map (Device.anew r) = s.devices.map (Device.anew r)

theorem AtRest.sameMake {s : Simulator} (h : s.AtRest) : s.SameMake s :=
  ⟨h.continues, fun _ => rfl⟩

theorem kept_sameMake (s : Simulator) : Kept s.SameMake where
  step s' h := by
    refine ⟨s.kept_continues.step s' h.continues, fun r => ?_⟩
    rw [h.continues.rest.map_step (Device.anew_bare r) (Device.anew_commit r), h.devices r]
  turn s' r' h := by
    refine ⟨s.kept_continues.turn s' r' h.continues, fun r => ?_⟩
    rw [map_modify (h := id) (Device.anew_turned r r'), h.devices r]
    exact Array.ext_getElem? (by simp [Array.getElem?_modify])
  reset s' h := by
    refine ⟨s.kept_continues.reset s' h.continues, fun r => ?_⟩
    rw [← h.devices r, Simulator.reset, Array.map_map]
    exact congrArg (s'.devices.map ·) (funext (Device.anew_reset r))

/-- The devices of a machine that is reset are made anew. -/
theorem AtRest.devices_reset {s : Simulator} (h : s.AtRest) (r : Float) :
    (s.reset.withRotation r).devices = s.devices.map (Device.anew r) := by
  rw [← h.reset.rest.map_turned r, Simulator.reset, Array.map_map]
  exact congrArg (s.devices.map ·) (funext fun d => (d.anew_eq r).symm)

theorem SameMake.reset_eq {s s' : Simulator} (h : s.SameMake s') (hs : s.AtRest) :
    s'.reset = s.reset.withRotation s'.motorRotation := by
  have hs' := h.continues.rest
  have hdevices : s'.reset.devices = (s.reset.withRotation s'.motorRotation).devices := by
    rw [hs.devices_reset, ← h.devices, ← hs'.devices_reset, ← s'.motorRotation_reset,
      hs'.reset.rest.withRotation_motorRotation]
  have hsize : s'.shafts.size = s.shafts.size := by
    rw [hs'.size, hs.size, h.continues.topology]
  calc
    s'.reset = ⟨s.topology, s'.reset.devices, Array.replicate s.shafts.size .rest, 0⟩ := by
      rw [Simulator.reset, h.continues.topology, hsize]
    _ = s.reset.withRotation s'.motorRotation := by
      rw [hdevices]
      rfl

/-- Every rotation that the motor is given is finite. -/
theorem finite_perform {s : Simulator} (h : s.AtRest) (hr : s.motorRotation.isFinite = true)
    (op : Operation) : (s.perform op).1.motorRotation.isFinite = true := by
  cases op with
  | step => exact h.motorRotation_step ▸ hr
  | run count => exact h.motorRotation_run count ▸ hr
  | setMotorRotation rotation =>
    rw [perform, setMotorRotation_eq, requireFinite]
    by_cases hf : rotation.isFinite = true
    · rw [if_pos hf]
      exact (h.motorRotation_withRotation rotation).symm ▸ hf
    · rw [if_neg hf]
      exact hr
  | reset => exact s.motorRotation_reset.symm ▸ hr

theorem finite_after {s : Simulator} (h : s.AtRest) (hr : s.motorRotation.isFinite = true)
    (ops : List Operation) : (s.after ops).motorRotation.isFinite = true := by
  induction ops generalizing s with
  | nil => exact hr
  | cons op ops ih => exact ih (h.perform op).rest (finite_perform h hr op)

end Simulator

namespace Piece

/-- The piece with its device made anew. -/
def anew (rotation : Float) : Piece → Piece
  | .shaft name o => .shaft name o
  | .device name d _ => .device name (d.anew rotation) (.of_reset_eq (d.reset_anew rotation))

theorem item_anew (r : Float) (piece : Piece) : (piece.anew r).item = piece.item := by
  cases piece with
  | shaft name o => rfl
  | device name d rest => exact congrArg (Topology.Draft.Item.device name) (d.fitting_anew r)

theorem devices_anew (r : Float) (pieces : List Piece) :
    devices (pieces.map (anew r)) = (devices pieces).map (Device.anew r) := by
  rw [devices, devices, List.filterMap_map, List.map_filterMap]
  refine List.filterMap_congr fun piece _ => ?_
  cases piece <;> rfl

end Piece

namespace Assembly

theorem draft_anew (r : Float) (pieces : List Piece) :
    (ofPieces (pieces.map (Piece.anew r))).draft = (ofPieces pieces).draft := by
  have hitems : (pieces.map (Piece.anew r)).map Piece.item = pieces.map Piece.item := by
    rw [List.map_map]
    exact congrArg (pieces.map ·) (funext (Piece.item_anew r))
  rw [ofPieces, ofPieces, foldl_add, foldl_add, hitems]

theorem build_anew {pieces : List Piece} {s : Simulator} (hb : (ofPieces pieces).build = .ok s)
    {r : Float} (hr : r.isFinite = true) :
    (ofPieces (pieces.map (Piece.anew r))).build = .ok (s.reset.withRotation r) := by
  have hs := Simulator.Built.atRest ⟨pieces, hb⟩
  obtain ⟨hcheck, topology, ht, rfl⟩ := (build_eq_ok_iff _ s).mp hb
  have hdevices : (ofPieces (pieces.map (Piece.anew r))).devices =
      (ofPieces pieces).devices.map (Device.anew r) := by
    rw [devices_ofPieces, devices_ofPieces, Piece.devices_anew]
    simp
  refine (build_eq_ok_iff _ _).mpr ⟨?_, topology, (draft_anew r pieces).symm ▸ ht, ?_⟩
  · rw [hdevices, Array.toList_map]
    refine checkParameters_eq_ok_iff.mpr (List.forall_mem_map.mpr fun d hd => ?_)
    exact Device.checkParameters_anew (checkParameters_eq_ok_iff.mp hcheck d hd) hr
  · have hreset := hs.devices_reset r
    have hsize : (Simulator.ofTopology topology (ofPieces pieces).devices).shafts.size =
        topology.shafts.size := by simp [Simulator.ofTopology]
    calc
      Simulator.ofTopology topology (ofPieces (pieces.map (Piece.anew r))).devices =
          ⟨topology, ((Simulator.ofTopology topology (ofPieces pieces).devices).reset.withRotation
            r).devices, Array.replicate topology.shafts.size .rest, 0⟩ := by
        rw [hreset, hdevices]
        rfl
      _ = (Simulator.ofTopology topology (ofPieces pieces).devices).reset.withRotation r := by
        rw [Simulator.withRotation, Simulator.reset, hsize]
        rfl

end Assembly

namespace Simulator

theorem Built.finite_motorRotation {s : Simulator} (h : s.Built) :
    s.motorRotation.isFinite = true := by
  obtain ⟨shaft, reversed, hd⟩ := h.atRest.exists_motor
  obtain ⟨pieces, hb⟩ := h
  obtain ⟨hcheck, topology, -, rfl⟩ := (Assembly.build_eq_ok_iff _ s).mp hb
  have hm := Array.mem_toList_iff.mpr (Array.mem_of_getElem? hd)
  exact Device.finite_of_rotation?_eq_some (Assembly.checkParameters_eq_ok_iff.mp hcheck _ hm) rfl

theorem Built.tick_eq {s : Simulator} (h : s.Built) : s.tick = 0 := by
  obtain ⟨pieces, hb⟩ := h
  obtain ⟨-, topology, -, rfl⟩ := (Assembly.build_eq_ok_iff _ s).mp hb
  rfl

/-- A machine of new devices that has not run is as a reset leaves it. -/
theorem Built.reset_eq {s : Simulator} (h : s.Built) (hnew : ∀ d ∈ s.devices, d.New) :
    s.reset = s := by
  have hdevices : s.devices.map Device.reset = s.devices := by
    conv_rhs => rw [← Array.map_id s.devices]
    exact Array.map_congr_left fun d hd => (hnew d hd).reset_eq
  obtain ⟨pieces, hb⟩ := h
  obtain ⟨-, topology, -, rfl⟩ := (Assembly.build_eq_ok_iff _ s).mp hb
  rw [Simulator.reset, hdevices]
  simp [Simulator.ofTopology]

/-- A reset is a fresh start. Whatever was done with a machine, it then is the machine built from
its shafts and its devices made anew, with the rotation that its motor has, and nothing that is done
with the two ever tells them apart. -/
theorem reset_fresh {pieces : List Piece} {s : Simulator}
    (hb : (Assembly.ofPieces pieces).build = .ok s) (ops : List Operation) :
    ∃ fresh, (Assembly.ofPieces (pieces.map (Piece.anew (s.after ops).motorRotation))).build =
        .ok fresh ∧
      fresh.motorRotation = (s.after ops).motorRotation ∧ (s.after ops).reset = fresh ∧
      ∀ later, (s.after ops).reset.record later = fresh.record later := by
  have hs : s.AtRest := Built.atRest ⟨pieces, hb⟩
  have hfinite := finite_after hs (Built.finite_motorRotation ⟨pieces, hb⟩) ops
  have hreset := (s.kept_sameMake.after hs.sameMake ops).reset_eq hs
  refine ⟨_, Assembly.build_anew hb hfinite, ?_, hreset, fun later => by rw [hreset]⟩
  exact hs.reset.rest.motorRotation_withRotation _

/-- The tripler forgets its ticks, the place of its disk included, but not that its crank turns
twice as fast. -/
theorem reset_fresh_tripler : ∃ s fresh : Simulator,
    (Assembly.ofPieces Piece.tripler).build = .ok s ∧
    (Assembly.ofPieces (Piece.tripler.map (Piece.anew 2.0))).build = .ok fresh ∧
    (s.after [.step, .setMotorRotation 2.0, .step]).tick = 2 ∧
    fresh.motorRotation = 2.0 ∧
    ∀ later, (s.after [.step, .setMotorRotation 2.0, .step]).reset.record later =
      fresh.record later := by
  have hb : ∃ s, (Assembly.ofPieces Piece.tripler).build = .ok s ∧
      (s.after [.step, .setMotorRotation 2.0, .step]).tick = 2 ∧
      (s.after [.step, .setMotorRotation 2.0, .step]).motorRotation = 2.0 :=
    ⟨_, rfl, by decide +kernel, by decide +kernel⟩
  obtain ⟨s, hs, htick, hr⟩ := hb
  obtain ⟨fresh, hbuild, hmotor, -, hrecord⟩ :=
    reset_fresh hs [.step, .setMotorRotation 2.0, .step]
  rw [hr] at hbuild hmotor
  exact ⟨s, fresh, hs, hbuild, htick, hmotor, hrecord⟩

end Simulator

end DifferentialAnalyzer
