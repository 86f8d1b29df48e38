import DifferentialAnalyzer.Proofs.Machine.Conclusion
import DifferentialAnalyzer.Proofs.Topology.Acceptance

/-! Machines as they are put together and used. Every state that operations lead to from a machine
as it was built lies between two ticks, with the topology and the devices' places unchanged. -/

namespace DifferentialAnalyzer

/-- What is added to a machine. A device that was just made has staged nothing, and so has one from
another machine that lies between two ticks. A device that was asked to resolve by hand, outside of
any tick, may have staged something. It is no piece, so that machines to which it was added do not
count as built. -/
inductive Piece where
  | shaft (name : String) (orientation : Orientation)
  | device (name : String) (d : Device) (rest : d.AtRest)

namespace Piece

def shaft? : Piece → Option Topology.Shaft
  | .shaft name orientation => some ⟨name, orientation⟩
  | .device .. => none

def device? : Piece → Option Device
  | .shaft .. => none
  | .device _ d _ => some d

def item : Piece → Topology.Draft.Item
  | .shaft name orientation => .shaft name orientation
  | .device name d _ => .device name d.fitting

/-- The shafts among some pieces, in the order in which they are added. -/
def shafts (pieces : List Piece) : List Topology.Shaft :=
  pieces.filterMap shaft?

/-- The devices among some pieces, in the order in which they are added. -/
def devices (pieces : List Piece) : List Device :=
  pieces.filterMap device?

/-- A crank whose rotation is doubled, added to the double, and used to integrate the double. -/
def tripler : List Piece :=
  [.shaft "crank" .horizontal, .shaft "double" .horizontal, .shaft "triple" .vertical,
    .shaft "area" .vertical,
    .device "motor" (.motor ⟨0⟩ 1.0 false) (.of_reset_eq rfl),
    .device "doubling" (.gearPair ⟨0⟩ ⟨1⟩ 2.0) (.of_reset_eq rfl),
    .device "adding" (.differential ⟨0⟩ ⟨2⟩ ⟨1⟩) (.of_reset_eq rfl),
    .device "integrating" (.ofIntegrator ⟨0⟩ ⟨1⟩ ⟨3⟩ 0.5 false) (.of_reset_eq rfl)]

/-- The same with its devices in reverse order. -/
def reversed : List Piece :=
  [.shaft "crank" .horizontal, .shaft "double" .horizontal, .shaft "triple" .vertical,
    .shaft "area" .vertical,
    .device "integrating" (.ofIntegrator ⟨0⟩ ⟨1⟩ ⟨3⟩ 0.5 false) (.of_reset_eq rfl),
    .device "adding" (.differential ⟨0⟩ ⟨2⟩ ⟨1⟩) (.of_reset_eq rfl),
    .device "doubling" (.gearPair ⟨0⟩ ⟨1⟩ 2.0) (.of_reset_eq rfl),
    .device "motor" (.motor ⟨0⟩ 1.0 false) (.of_reset_eq rfl)]

/-- The same with the doubling made once more, after the integrator has staged a place. -/
def jammed : List Piece :=
  tripler ++ [.device "doubling again" (.gearPair ⟨0⟩ ⟨1⟩ 2.0) (.of_reset_eq rfl)]

theorem atRest_of_mem_devices {pieces : List Piece} {d : Device} (hd : d ∈ devices pieces) :
    d.AtRest := by
  obtain ⟨piece, -, hp⟩ := List.mem_filterMap.mp hd
  cases piece with
  | shaft name o => simp [device?] at hp
  | device name d' rest => exact Option.some.inj hp ▸ rest

end Piece

namespace Assembly

def add (a : Assembly) : Piece → Assembly
  | .shaft name orientation => (a.addShaft name orientation).1
  | .device name d _ => (a.addDevice name d).1

def ofPieces (pieces : List Piece) : Assembly :=
  pieces.foldl add empty

theorem foldl_add (a : Assembly) (pieces : List Piece) : pieces.foldl add a =
    ⟨(pieces.map Piece.item).foldl Topology.Draft.add a.draft,
      a.devices ++ Piece.devices pieces⟩ := by
  induction pieces generalizing a with
  | nil => simp [Piece.devices]
  | cons piece pieces ih =>
    rw [List.foldl_cons, ih]
    cases piece with
    | shaft name o => rfl
    | device name d rest =>
      simp [add, addDevice, Piece.item, Piece.devices, Piece.device?, Topology.Draft.add,
        Device.fitting]

theorem holds_ofPieces (pieces : List Piece) :
    (ofPieces pieces).draft.Holds ((Piece.devices pieces).map Device.fitting) := by
  have hh := Topology.Draft.holds_empty.addAll (pieces.map Piece.item)
  have hf : (pieces.map Piece.item).filterMap Topology.Draft.Item.fitting? =
      (Piece.devices pieces).map Device.fitting := by
    rw [List.filterMap_map, Piece.devices, List.map_filterMap]
    apply List.filterMap_congr
    intro piece _
    cases piece <;> rfl
  rw [hf, List.nil_append] at hh
  rw [ofPieces, foldl_add]
  exact hh

theorem shafts_ofPieces (pieces : List Piece) :
    (ofPieces pieces).draft.shafts.toList = Piece.shafts pieces := by
  have hf : (pieces.map Piece.item).filterMap Topology.Draft.Item.shaft? = Piece.shafts pieces := by
    rw [List.filterMap_map, Piece.shafts]
    apply List.filterMap_congr
    intro piece _
    cases piece <;> rfl
  rw [ofPieces, foldl_add, Topology.Draft.shafts_addAll, hf]
  rfl

theorem devices_ofPieces (pieces : List Piece) :
    (ofPieces pieces).devices = (Piece.devices pieces).toArray := by
  rw [ofPieces, foldl_add]
  simp [empty]

/-- Shafts and devices were added, the devices in whatever state. -/
inductive Composed : Assembly → Prop
  | empty : Composed empty
  | shaft {a : Assembly} (h : Composed a) (name : String) (orientation : Orientation) :
      Composed (a.addShaft name orientation).1
  | device {a : Assembly} (h : Composed a) (name : String) (d : Device) :
      Composed (a.addDevice name d).1

theorem composed_ofPieces (pieces : List Piece) : (ofPieces pieces).Composed := by
  have hfold : ∀ a : Assembly, a.Composed → (pieces.foldl add a).Composed := by
    induction pieces with
    | nil => exact fun _ ha => ha
    | cons piece pieces ih =>
      intro a ha
      cases piece with
      | shaft name o => exact ih _ (ha.shaft name o)
      | device name d _ => exact ih _ (ha.device name d)
  exact hfold empty .empty

theorem Composed.holds {a : Assembly} (h : a.Composed) :
    a.draft.Holds (a.devices.toList.map Device.fitting) := by
  induction h with
  | empty => exact Topology.Draft.holds_empty
  | shaft _ name o ih => exact ih.addShaft name o
  | device _ name d ih => simpa [addDevice, Device.fitting] using ih.addDevice name d.fitting

theorem checkParameters_eq_ok_iff {ds : List Device} :
    checkParameters ds = .ok () ↔ ∀ d ∈ ds, d.checkParameters = .ok () := by
  induction ds with
  | nil => simp [checkParameters]
  | cons d ds ih =>
    rw [checkParameters, List.forall_mem_cons, ← ih]
    cases d.checkParameters <;> simp [bind, Except.bind]

theorem build_eq_ok_iff (a : Assembly) (s : Simulator) :
    a.build = .ok s ↔ checkParameters a.devices.toList = .ok () ∧
      ∃ topology, a.draft.build = .ok topology ∧ .ofTopology topology a.devices = s := by
  unfold build
  cases checkParameters a.devices.toList with
  | error e => simp [bind, Except.bind]
  | ok _ =>
    cases a.draft.build with
    | error e => simp [bind, Except.bind]
    | ok topology => simp [bind, Except.bind]

end Assembly

inductive Operation where
  | step
  | run (count : Nat)
  | setMotorRotation (rotation : Float)
  | reset

inductive Response where
  | done
  | failed (e : MachineError)
  | refused (e : Fault)

namespace Response

def ofError? : Option MachineError → Response
  | none => .done
  | some e => .failed e

end Response

namespace Simulator

def perform (s : Simulator) : Operation → Simulator × Response
  | .step => (s.step.1, .ofError? s.step.2)
  | .run count => ((s.run count).1, .ofError? (s.run count).2)
  | .setMotorRotation rotation =>
    match s.setMotorRotation rotation with
    | .ok s' => (s', .done)
    | .error e => (s, .refused e)
  | .reset => (s.reset, .done)

/-- The machine after some operations. -/
def after (s : Simulator) (ops : List Operation) : Simulator :=
  ops.foldl (fun s op => (s.perform op).1) s

/-- A machine as it was built from shafts and devices. -/
def Built (s : Simulator) : Prop :=
  ∃ pieces : List Piece, (Assembly.ofPieces pieces).build = .ok s

/-- The motor with another rotation; other devices stay. -/
def turned (rotation : Float) : Device → Device
  | .motor shaft _ reversed => .motor shaft rotation reversed
  | d => d

theorem setMotorRotation_eq (s : Simulator) (rotation : Float) : s.setMotorRotation rotation =
    match requireFinite "motor rotation" rotation with
    | .ok r => .ok { s with devices := s.devices.modify s.topology.motor.index (turned r) }
    | .error e => .error e := by
  unfold setMotorRotation
  cases requireFinite "motor rotation" rotation with
  | error e => rfl
  | ok r =>
    have hf : turned r = fun
        | .motor shaft _ reversed => .motor shaft r reversed
        | d => d := by
      funext d
      cases d <;> rfl
    simp only [hf]
    rfl

/-- Ticks, changes of the motor's rotation and resets keep `P`. -/
structure Kept (P : Simulator → Prop) : Prop where
  step : ∀ s, P s → P s.step.1
  turn : ∀ s r, P s →
    P { s with devices := s.devices.modify s.topology.motor.index (turned r) }
  reset : ∀ s, P s → P s.reset

theorem Kept.run {P : Simulator → Prop} (h : Kept P) {s : Simulator} (hs : P s) (count : Nat) :
    P (s.run count).1 := by
  induction count generalizing s with
  | zero => exact hs
  | succ count ih =>
    have hstep := h.step s hs
    rw [run_succ]
    cases he : s.step with
    | mk s' err =>
      rw [he] at hstep
      cases err with
      | none => exact ih hstep
      | some e => exact hstep

theorem Kept.perform {P : Simulator → Prop} (h : Kept P) {s : Simulator} (hs : P s)
    (op : Operation) : P (s.perform op).1 := by
  cases op with
  | step => exact h.step s hs
  | run count => exact h.run hs count
  | setMotorRotation rotation =>
    rw [Simulator.perform, setMotorRotation_eq]
    cases requireFinite "motor rotation" rotation with
    | ok r => exact h.turn s r hs
    | error e => exact hs
  | reset => exact h.reset s hs

theorem Kept.after {P : Simulator → Prop} (h : Kept P) {s : Simulator} (hs : P s)
    (ops : List Operation) : P (s.after ops) := by
  induction ops generalizing s with
  | nil => exact hs
  | cons op ops ih => exact ih (h.perform hs op)

theorem map_modify {α β : Type} {f : α → α} {g : α → β} {h : β → β} (hf : ∀ x, g (f x) = h (g x))
    (xs : Array α) (i : Nat) : (xs.modify i f).map g = (xs.map g).modify i h := by
  apply Array.ext_getElem?
  intro j
  by_cases hj : i = j
  · cases hx : xs[j]? <;> simp [Array.getElem?_modify, hj, hx, hf]
  · simp [Array.getElem?_modify, hj]

theorem uncached_turned (r : Float) (d : Device) :
    (turned r d).uncached = turned r d.uncached := by
  cases d <;> rfl

theorem fitting_turned (r : Float) (d : Device) : (turned r d).fitting = d.fitting := by
  cases d <;> rfl

theorem fittings_turn (devices : Array Device) (i : Nat) (r : Float) :
    (devices.modify i (turned r)).map Device.fitting = devices.map Device.fitting := by
  rw [map_modify (h := id) (fitting_turned r)]
  apply Array.ext_getElem?
  simp [Array.getElem?_modify]

theorem AtRest.turn {s : Simulator} (h : s.AtRest) (r : Float) :
    s.Continues { s with devices := s.devices.modify s.topology.motor.index (turned r) } := by
  have hf := fittings_turn s.devices s.topology.motor.index r
  refine ⟨h.of_maps rfl hf rfl h.shafts fun d hd => ?_, rfl, hf⟩
  obtain ⟨i, hi⟩ := Array.mem_iff_getElem?.mp hd
  rw [Array.getElem?_modify] at hi
  split at hi
  · obtain ⟨d', hd', rfl⟩ := Option.map_eq_some_iff.mp hi
    have hr := h.devices d' (Array.mem_of_getElem? hd')
    cases d' with
    | motor shaft rotation reversed => exact ⟨rfl, trivial⟩
    | _ => exact hr
  · exact h.devices d (Array.mem_of_getElem? hi)

theorem fittings_reset (s : Simulator) :
    s.reset.devices.map Device.fitting = s.devices.map Device.fitting := by
  rw [Simulator.reset, Array.map_map]
  exact congrArg (s.devices.map ·) (funext fun d => d.fitting_reset)

theorem AtRest.reset {s : Simulator} (h : s.AtRest) : s.Continues s.reset := by
  have hf := s.fittings_reset
  refine ⟨h.of_maps rfl hf (by simp [Simulator.reset]) (fun x hx => ?_) fun d hd => ?_, rfl, hf⟩
  · simp only [Simulator.reset, Array.mem_replicate] at hx
    rw [hx.2]
    rfl
  · obtain ⟨d', -, rfl⟩ := Array.mem_map.mp hd
    exact d'.atRest_reset

theorem kept_continues (s : Simulator) : Kept s.Continues where
  step _ h := h.trans h.rest.step
  turn _ r h := h.trans (h.rest.turn r)
  reset _ h := h.trans h.rest.reset

theorem AtRest.run {s : Simulator} (h : s.AtRest) (count : Nat) :
    s.Continues (s.run count).1 :=
  s.kept_continues.run h.continues count

theorem AtRest.perform {s : Simulator} (h : s.AtRest) (op : Operation) :
    s.Continues (s.perform op).1 :=
  s.kept_continues.perform h.continues op

theorem AtRest.after {s : Simulator} (h : s.AtRest) (ops : List Operation) :
    s.Continues (s.after ops) :=
  s.kept_continues.after h.continues ops

theorem Built.atRest {s : Simulator} (h : s.Built) : s.AtRest := by
  obtain ⟨pieces, hb⟩ := h
  obtain ⟨-, topology, ht, rfl⟩ := (Assembly.build_eq_ok_iff _ s).mp hb
  have hh := (Assembly.holds_ofPieces pieces).describes ht
  refine ⟨?_, by simp [ofTopology], fun x hx => ?_, fun d hd => ?_⟩
  · simpa [ofTopology, Assembly.devices_ofPieces] using hh
  · simp only [ofTopology, Array.mem_replicate] at hx
    rw [hx.2]
    rfl
  · have hm : d ∈ Piece.devices pieces := by
      simpa [ofTopology, Assembly.devices_ofPieces] using hd
    exact Piece.atRest_of_mem_devices hm

end Simulator

end DifferentialAnalyzer
