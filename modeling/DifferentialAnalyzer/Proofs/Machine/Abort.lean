import DifferentialAnalyzer.Proofs.Machine.Operation

/-! Steps that fail. All they can leave behind is a level that a table has looked up, and two
machines that differ in levels alone do the same ever after. -/

namespace DifferentialAnalyzer

namespace Device

theorem resolve_uncached {d : Device} (hl : d.LevelSound) (id : DeviceId) (shafts : Shafts) :
    (d.uncached.resolve id shafts).2 = (d.resolve id shafts).2 ∧
      (d.uncached.resolve id shafts).1.uncached = (d.resolve id shafts).1.uncached := by
  cases d with
  | functionTable t =>
    obtain ⟨level, -, hh⟩ := height_eq (t := t) hl
    obtain ⟨level', -, hh'⟩ := height_eq (t := { t with level := none }) (fun y hy => by simp at hy)
    simp only [uncached, resolve, FunctionTable.resolve, hh, hh']
    cases claimed id t.output shafts with
    | error e => exact ⟨rfl, rfl⟩
    | ok done =>
      cases done with
      | some answer => exact ⟨rfl, rfl⟩
      | none =>
        cases (shafts.get t.input).resolved with
        | none => exact ⟨rfl, rfl⟩
        | some turn =>
          cases t.curve.eval t.position with
          | error e => exact ⟨rfl, rfl⟩
          | ok old =>
            cases he : t.curve.eval (t.position + turn) <;> simp [he]
  | _ => exact ⟨rfl, rfl⟩

theorem levelSound_resolve {d : Device} (hl : d.LevelSound) (id : DeviceId) (shafts : Shafts) :
    (d.resolve id shafts).1.LevelSound := by
  cases d with
  | functionTable t =>
    obtain ⟨level, hlevel, hh⟩ := height_eq (t := t) hl
    simp only [resolve, FunctionTable.resolve, hh]
    cases claimed id t.output shafts with
    | error e => exact hl
    | ok done =>
      cases done with
      | some answer => exact hl
      | none =>
        cases (shafts.get t.input).resolved with
        | none => exact hl
        | some turn =>
          cases t.curve.eval t.position with
          | error e => exact hlevel
          | ok old =>
            cases he : t.curve.eval (t.position + turn) <;> simp only [he] <;> exact hlevel
  | _ => trivial

/-- Devices that differ in levels only, all of which are right. -/
structure Alike (d e : Device) : Prop where
  uncached : d.uncached = e.uncached
  left : d.LevelSound
  right : e.LevelSound

theorem Alike.resolve {d e : Device} (h : d.Alike e) (id : DeviceId) (shafts : Shafts) :
    (d.resolve id shafts).2 = (e.resolve id shafts).2 ∧
      (d.resolve id shafts).1.Alike (e.resolve id shafts).1 := by
  have hd := resolve_uncached h.left id shafts
  have he := resolve_uncached h.right id shafts
  rw [h.uncached] at hd
  exact ⟨hd.1.symm.trans he.1, hd.2.symm.trans he.2, levelSound_resolve h.left id shafts,
    levelSound_resolve h.right id shafts⟩

theorem map_eq_of_uncached {α : Type} {f : Device → α} (hf : ∀ d, f d.uncached = f d)
    {ds es : Array Device} (h : ds.map uncached = es.map uncached) : ds.map f = es.map f := by
  have hm : f ∘ uncached = f := funext hf
  have hh := congrArg (Array.map f) h
  rwa [Array.map_map, Array.map_map, hm] at hh

end Device

namespace Tick

/-- Running ticks that differ in levels only, all of which are right. -/
structure Alike (a b : Tick) : Prop where
  devices : a.devices.map Device.uncached = b.devices.map Device.uncached
  left : ∀ d ∈ a.devices, d.LevelSound
  right : ∀ d ∈ b.devices, d.LevelSound
  shafts : a.shafts = b.shafts
  waiting : a.waiting = b.waiting

/-- The same has been reported in ticks that are alike. -/
def Agree (r r' : Tick × Option MachineError) : Prop :=
  r.2 = r'.2 ∧ r.1.Alike r'.1

theorem Alike.device {a b : Tick} (h : a.Alike b) {i : Nat} {d : Device}
    (hd : a.devices[i]? = some d) : ∃ e, b.devices[i]? = some e ∧ d.Alike e := by
  have hi := congrArg (·[i]?) h.devices
  simp only [Array.getElem?_map, hd, Option.map_some] at hi
  obtain ⟨e, he, hu⟩ := Option.map_eq_some_iff.mp hi.symm
  exact ⟨e, he, hu.symm, h.left d (Array.mem_of_getElem? hd), h.right e (Array.mem_of_getElem? he)⟩

theorem Alike.replace {a b : Tick} (h : a.Alike b) {d e : Device} (hd : d.Alike e) (i : Nat) :
    Alike { a with devices := a.devices.setIfInBounds i d }
      { b with devices := b.devices.setIfInBounds i e } where
  devices := by simp only [Array.map_setIfInBounds, h.devices, hd.uncached]
  left x hx := by
    rcases Array.mem_or_eq_of_mem_setIfInBounds hx with hx | rfl
    · exact h.left x hx
    · exact hd.left
  right x hx := by
    rcases Array.mem_or_eq_of_mem_setIfInBounds hx with hx | rfl
    · exact h.right x hx
    · exact hd.right
  shafts := h.shafts
  waiting := h.waiting

theorem Alike.apply {a b : Tick} (h : a.Alike b) (id : DeviceId) (r : Resolution) :
    Agree (a.apply id r) (b.apply id r) := by
  cases r with
  | write x v =>
    simp only [Tick.apply, h.shafts]
    cases (b.shafts.get x).resolve? v (some id) with
    | none => exact ⟨rfl, h⟩
    | some state =>
      exact ⟨rfl, h.devices, h.left, h.right, rfl, congrArg (x :: ·) h.waiting⟩
  | idle => exact ⟨rfl, h⟩
  | unchanged x => exact ⟨rfl, h⟩

theorem Alike.ask {a b : Tick} (h : a.Alike b) (id : DeviceId) :
    Agree (a.ask id) (b.ask id) := by
  cases hd : a.devices[id.index]? with
  | none =>
    have hb : b.devices[id.index]? = none := by
      have hi := congrArg (·[id.index]?) h.devices
      simpa [hd] using hi.symm
    simp only [Tick.ask, hd, hb]
    exact ⟨rfl, h⟩
  | some d =>
    obtain ⟨e, he, hde⟩ := h.device hd
    obtain ⟨hans, hafter⟩ := hde.resolve id b.shafts
    have hnew := h.replace hafter id.index
    rw [h.shafts] at hnew
    rw [ask_eq hd, ask_eq he, h.shafts, hans]
    cases (e.resolve id b.shafts).2 with
    | error err => exact ⟨rfl, hnew⟩
    | ok r => exact hnew.apply id r

theorem Agree.andThen {r r' : Tick × Option MachineError} (h : Agree r r')
    {next next' : Tick → Tick × Option MachineError}
    (hnext : ∀ a b, a.Alike b → Agree (next a) (next' b)) :
    Agree (andThen next r) (andThen next' r') := by
  obtain ⟨a, err⟩ := r
  obtain ⟨b, err'⟩ := r'
  obtain ⟨herr, halike⟩ := h
  obtain rfl : err = err' := herr
  cases err with
  | none => exact hnext a b halike
  | some e => exact ⟨rfl, halike⟩

theorem Alike.askAll {a b : Tick} (h : a.Alike b) (ids : List DeviceId) :
    Agree (a.askAll ids) (b.askAll ids) := by
  induction ids generalizing a b with
  | nil => exact ⟨rfl, h⟩
  | cons id ids ih =>
    rw [askAll_cons, askAll_cons]
    exact (h.ask id).andThen fun _ _ => ih

theorem Alike.drain {a b : Tick} (h : a.Alike b) (topology : Topology) (count : Nat) :
    Agree (Tick.drain topology count a) (Tick.drain topology count b) := by
  induction count generalizing a b with
  | zero => exact ⟨rfl, h⟩
  | succ count ih =>
    cases hw : b.waiting with
    | nil =>
      simp only [Tick.drain, h.waiting, hw]
      exact ⟨rfl, h⟩
    | cons x rest =>
      have htaken : Alike { a with waiting := rest } { b with waiting := rest } :=
        ⟨h.devices, h.left, h.right, h.shafts, rfl⟩
      rw [drain_cons topology count (h.waiting.trans hw), drain_cons topology count hw]
      exact (htaken.askAll (topology.reactive x)).andThen fun _ _ => ih

theorem Alike.propagate {a b : Tick} (h : a.Alike b) (topology : Topology) :
    Agree (Tick.propagate topology a) (Tick.propagate topology b) := by
  rw [propagate_eq, propagate_eq]
  refine (h.ask topology.motor).andThen fun a' b' h' => ?_
  rw [h'.shafts]
  exact h'.drain topology b'.shafts.size

end Tick

namespace Simulator

/-- All that can be seen of a machine. The levels that tables have looked up cannot. -/
def visible (s : Simulator) : Simulator :=
  { s with devices := s.devices.map Device.uncached }

/-- What operations report, and what can be seen of the machine after each of them. -/
def record (s : Simulator) : List Operation → List (Response × Simulator)
  | [] => []
  | op :: ops => ((s.perform op).2, (s.perform op).1.visible) :: (s.perform op).1.record ops

structure Alike (s s' : Simulator) : Prop where
  visible : s.visible = s'.visible
  left : s.AtRest
  right : s'.AtRest

theorem visible_eq_iff {s s' : Simulator} : s.visible = s'.visible ↔ s.topology = s'.topology ∧
    s.devices.map Device.uncached = s'.devices.map Device.uncached ∧ s.shafts = s'.shafts ∧
    s.tick = s'.tick := by
  simp [visible]

theorem Alike.start {s s' : Simulator} (h : s.Alike s') : s.start.Alike s'.start := by
  obtain ⟨-, hdevices, hshafts, -⟩ := visible_eq_iff.mp h.visible
  exact ⟨hdevices, fun d hd => (h.left.devices d hd).2, fun d hd => (h.right.devices d hd).2,
    hshafts, rfl⟩

theorem Alike.conclude {s s' : Simulator} (h : s.Alike s') {r r' : Tick × Option MachineError}
    (hr : Tick.Agree r r') : (s.conclude r).1.visible = (s'.conclude r').1.visible := by
  obtain ⟨htopology, -, -, htick⟩ := visible_eq_iff.mp h.visible
  obtain ⟨t, err⟩ := r
  obtain ⟨t', err'⟩ := r'
  obtain ⟨herr, ht⟩ := hr
  obtain rfl : err = err' := herr
  have hshafts : t.shafts = t'.shafts := ht.shafts
  rw [visible_eq_iff]
  cases err with
  | none =>
    simp only [Simulator.conclude, Array.map_map, hshafts, htick, and_true]
    exact ⟨htopology, Device.map_eq_of_uncached (fun d => (d.uncached_commit _).symm) ht.devices⟩
  | some e =>
    simp only [Simulator.conclude, Array.map_map, hshafts, true_and]
    exact ⟨htopology, Device.map_eq_of_uncached Device.bare_uncached ht.devices, htick⟩

theorem Alike.step {s s' : Simulator} (h : s.Alike s') :
    s.step.2 = s'.step.2 ∧ s.step.1.Alike s'.step.1 := by
  have hr : Tick.Agree s.propagated s'.propagated := by
    rw [propagated, propagated, (visible_eq_iff.mp h.visible).1]
    exact h.start.propagate s'.topology
  refine ⟨?_, ?_, h.left.step.rest, h.right.step.rest⟩
  · rw [step_eq, step_eq, conclude_snd, conclude_snd]
    exact hr.1
  · rw [step_eq, step_eq]
    exact h.conclude hr

theorem Alike.run {s s' : Simulator} (h : s.Alike s') (count : Nat) :
    (s.run count).2 = (s'.run count).2 ∧ (s.run count).1.Alike (s'.run count).1 := by
  induction count generalizing s s' with
  | zero => exact ⟨rfl, h⟩
  | succ count ih =>
    obtain ⟨herr, hnext⟩ := h.step
    rw [run_succ, run_succ]
    cases hs : s.step with
    | mk t err =>
      cases hs' : s'.step with
      | mk t' err' =>
        rw [hs, hs'] at herr hnext
        obtain rfl : err = err' := herr
        cases err with
        | none => exact ih hnext
        | some e => exact ⟨rfl, hnext⟩

theorem Alike.turn {s s' : Simulator} (h : s.Alike s') (r : Float) :
    Simulator.visible { s with devices := s.devices.modify s.topology.motor.index (turned r) } =
      Simulator.visible
        { s' with devices := s'.devices.modify s'.topology.motor.index (turned r) } := by
  obtain ⟨htopology, hdevices, hshafts, htick⟩ := visible_eq_iff.mp h.visible
  refine visible_eq_iff.mpr ⟨htopology, ?_, hshafts, htick⟩
  rw [map_modify (uncached_turned r), map_modify (uncached_turned r), hdevices, htopology]

theorem Alike.perform {s s' : Simulator} (h : s.Alike s') (op : Operation) :
    (s.perform op).2 = (s'.perform op).2 ∧ (s.perform op).1.Alike (s'.perform op).1 := by
  have hrest := h.left.perform op
  have hrest' := h.right.perform op
  suffices hh : (s.perform op).2 = (s'.perform op).2 ∧
      (s.perform op).1.visible = (s'.perform op).1.visible from
    ⟨hh.1, hh.2, hrest.rest, hrest'.rest⟩
  cases op with
  | step => exact ⟨congrArg Response.ofError? h.step.1, h.step.2.visible⟩
  | run count =>
    exact ⟨congrArg Response.ofError? (h.run count).1, (h.run count).2.visible⟩
  | setMotorRotation rotation =>
    simp only [Simulator.perform, setMotorRotation_eq]
    cases requireFinite "motor rotation" rotation with
    | ok r => exact ⟨rfl, h.turn r⟩
    | error e => exact ⟨rfl, h.visible⟩
  | reset =>
    obtain ⟨htopology, hdevices, hshafts, -⟩ := visible_eq_iff.mp h.visible
    refine ⟨rfl, visible_eq_iff.mpr ⟨htopology, ?_, ?_, rfl⟩⟩
    · simp only [Simulator.perform, Simulator.reset, Array.map_map]
      exact Device.map_eq_of_uncached Device.uncached_reset hdevices
    · simp only [Simulator.perform, Simulator.reset, hshafts]

theorem Alike.record {s s' : Simulator} (h : s.Alike s') (ops : List Operation) :
    s.record ops = s'.record ops := by
  induction ops generalizing s s' with
  | nil => rfl
  | cons op ops ih =>
    obtain ⟨hresponse, hnext⟩ := h.perform op
    rw [Simulator.record, Simulator.record, hresponse, hnext.visible, ih hnext]

theorem AtRest.visible_conclude {s : Simulator} (hs : s.AtRest) {r : Tick × Option MachineError}
    (h : Tick.Running s r.1) (he : r.2 ≠ none) : (s.conclude r).1.visible = s.visible := by
  obtain ⟨t, _ | e⟩ := r
  · exact absurd rfl he
  · exact visible_eq_iff.mpr ⟨rfl, h.rollback_devices hs, h.rollback_shafts hs, rfl⟩

theorem AtRest.alike_step {s : Simulator} (hs : s.AtRest) {e : MachineError}
    (he : s.step.2 = some e) : s.step.1.Alike s := by
  have hrun := ((scheduled_propagated hs).ended hs).running
  refine ⟨?_, hs.step.rest, hs⟩
  rw [step_eq, conclude_snd] at he
  rw [step_eq]
  exact hs.visible_conclude hrun (by simp [he])

theorem exists_of_run_failed {s : Simulator} {count : Nat} {e : MachineError}
    (h : (s.run count).2 = some e) : ∃ done < count, (s.run done).2 = none ∧
      (s.run done).1.step.2 = some e ∧ s.run count = (s.run done).1.step := by
  induction count generalizing s with
  | zero => exact absurd h (by simp [Simulator.run])
  | succ count ih =>
    rw [run_succ] at h ⊢
    cases hs : s.step with
    | mk t err =>
      rw [hs] at h
      cases err with
      | none =>
        obtain ⟨done, hlt, hok, hfail, heq⟩ := ih h
        have hrun : s.run (done + 1) = t.run done := by rw [run_succ, hs]
        exact ⟨done + 1, by omega, hrun ▸ hok, hrun ▸ hfail, hrun ▸ heq⟩
      | some e' =>
        have hrun : (s.run 0).1.step = (t, some e') := hs
        exact ⟨0, by omega, rfl, hrun ▸ h, hrun.symm⟩

/-- No shaft is being resolved and no device is about to move. -/
structure Quiet (s : Simulator) : Prop where
  shafts : ∀ x ∈ s.shafts, x.ready = false ∧ x.driver = none ∧ x.next = x.current
  integrators : ∀ i, .integrator i ∈ s.devices → i.staged = none
  functionTables : ∀ t, .functionTable t ∈ s.devices → t.staged = none

theorem AtRest.quiet {s : Simulator} (h : s.AtRest) : s.Quiet where
  shafts x hx := by
    rw [h.shafts x hx]
    exact ⟨rfl, rfl, rfl⟩
  integrators i hi := by
    have hr : ({ i with staged := none } : Integrator) = i := by
      simpa [Device.rollback] using (h.devices _ hi).1
    rw [← hr]
  functionTables t ht := by
    have hr : ({ t with staged := none } : FunctionTable) = t := by
      simpa [Device.rollback] using (h.devices _ ht).1
    rw [← hr]

/-- Between operations a machine is quiet. A step that fails changes nothing that can be seen or
that later operations depend on, and a run that fails stops after the ticks that succeeded. -/
theorem failed_step {s : Simulator} (h : s.Built) (ops : List Operation) :
    (s.after ops).Quiet ∧
    (∀ e, (s.after ops).step.2 = some e →
      (s.after ops).step.1.visible = (s.after ops).visible ∧
      ∀ later, (s.after ops).step.1.record later = (s.after ops).record later) ∧
    ∀ count e, ((s.after ops).run count).2 = some e → ∃ done < count,
      ((s.after ops).run done).2 = none ∧ ((s.after ops).run done).1.step.2 = some e ∧
      ((s.after ops).run count).1.visible = ((s.after ops).run done).1.visible := by
  have hs := (h.atRest.after ops).rest
  refine ⟨hs.quiet, fun e he => ?_, fun count e he => ?_⟩
  · exact ⟨(hs.alike_step he).visible, (hs.alike_step he).record⟩
  · obtain ⟨done, hlt, hok, hfail, heq⟩ := exists_of_run_failed he
    refine ⟨done, hlt, hok, hfail, ?_⟩
    rw [heq]
    exact ((hs.run done).rest.alike_step hfail).visible

theorem failed_step_jammed : ∃ s : Simulator, s.Built ∧
    s.step.2 = some (.duplicateResolution ⟨1⟩ ⟨4⟩) ∧
    ∀ later, s.step.1.record later = s.record later := by
  have hb : ∃ s, (Assembly.ofPieces Piece.jammed).build = .ok s ∧
      s.step.2 = some (.duplicateResolution ⟨1⟩ ⟨4⟩) := ⟨_, rfl, by rfl⟩
  obtain ⟨s, hs, he⟩ := hb
  exact ⟨s, ⟨_, hs⟩, he, ((failed_step ⟨_, hs⟩ []).2.1 _ he).2⟩

end Simulator

end DifferentialAnalyzer
