import DifferentialAnalyzer.Proofs.Machine.Abort

/-! The flow of rotations through a machine. Which shafts a tick resolves and which devices drive
them is settled by the wiring; the values only decide whether a curve fails on the way. -/

namespace DifferentialAnalyzer

namespace Shafts

/-- The same shafts are resolved by the same devices, whatever their rotations. -/
structure SameFlow (a b : Shafts) : Prop where
  size : a.size = b.size
  ready : ∀ x, (a.get x).ready = (b.get x).ready
  driver : ∀ x, (a.get x).driver = (b.get x).driver

section SameFlow

variable {a b : Shafts}

theorem SameFlow.ready_iff (h : a.SameFlow b) (x : ShaftId) : a.Ready x ↔ b.Ready x := by
  rw [Ready, Ready, h.ready]

theorem SameFlow.drivenBy_iff (h : a.SameFlow b) (x : ShaftId) (id : DeviceId) :
    a.DrivenBy x id ↔ b.DrivenBy x id := by
  rw [DrivenBy, DrivenBy, h.ready_iff, h.driver]

theorem SameFlow.drivenElsewhere (h : a.SameFlow b) (x : ShaftId) (id : DeviceId) :
    (a.get x).drivenElsewhere id = (b.get x).drivenElsewhere id := by
  rw [ShaftState.drivenElsewhere, ShaftState.drivenElsewhere, h.ready, h.driver]

theorem SameFlow.resolved (h : a.SameFlow b) (x : ShaftId) :
    ((a.get x).resolved = none ∧ (b.get x).resolved = none) ∨
      ∃ v w, (a.get x).resolved = some v ∧ (b.get x).resolved = some w := by
  by_cases hx : a.Ready x
  · exact .inr ⟨_, _, resolved_eq_some_iff.mpr ⟨hx, rfl⟩,
      resolved_eq_some_iff.mpr ⟨(h.ready_iff x).mp hx, rfl⟩⟩
  · exact .inl ⟨resolved_eq_none_iff.mpr hx,
      resolved_eq_none_iff.mpr (mt (h.ready_iff x).mpr hx)⟩

theorem SameFlow.set (h : a.SameFlow b) (x : ShaftId) {v w : ShaftState}
    (hready : v.ready = w.ready) (hdriver : v.driver = w.driver) :
    (a.set x v).SameFlow (b.set x w) := by
  by_cases hx : x.index < a.size
  · have hx' : x.index < b.size := h.size ▸ hx
    refine ⟨by simpa [Shafts.set] using h.size, fun y => ?_, fun y => ?_⟩
    · rw [get_set a hx, get_set b hx']
      split
      · exact hready
      · exact h.ready y
    · rw [get_set a hx, get_set b hx']
      split
      · exact hdriver
      · exact h.driver y
  · have hx' : ¬ x.index < b.size := h.size ▸ hx
    rw [Shafts.set, Shafts.set, Array.setIfInBounds_eq_of_size_le (by omega),
      Array.setIfInBounds_eq_of_size_le (by omega)]
    exact h

end SameFlow

theorem get_replicate_rest (n : Nat) (x : ShaftId) :
    Shafts.get (Array.replicate n .rest) x = .rest := by
  rw [Shafts.get, Array.getD_eq_getD_getElem?, Array.getElem?_replicate]
  split <;> rfl

end Shafts

/-- Answers to the same effect: the rotations that they give may differ, and where one is that a
curve fails the other may be any. -/
inductive SameEffect : Except MachineError Resolution → Except MachineError Resolution → Prop
  | same (r : Except MachineError Resolution) : SameEffect r r
  | write (x : ShaftId) (v w : Float) : SameEffect (.ok (.write x v)) (.ok (.write x w))
  | left (id : DeviceId) (e : ExprError) (r : Except MachineError Resolution) :
      SameEffect (.error (.expression id e)) r
  | right (r : Except MachineError Resolution) (id : DeviceId) (e : ExprError) :
      SameEffect r (.error (.expression id e))

namespace Device

section SameEffect

variable {a b : Shafts}

theorem claimed_congr (h : a.SameFlow b) (id : DeviceId) (output : ShaftId) :
    claimed id output a = claimed id output b := by
  rw [claimed, claimed, h.drivenElsewhere, h.ready]

theorem settled_congr (h : a.SameFlow b) (id : DeviceId) (linked : List ShaftId) :
    settled id linked a = settled id linked b := by
  simp only [settled, h.drivenElsewhere]

theorem link_sameEffect (h : a.SameFlow b) (id : DeviceId) (x y : ShaftId)
    (f g f' g' : Float → Float) : SameEffect (link id a x y f g) (link id b x y f' g') := by
  rcases h.resolved x with ⟨hx, hx'⟩ | ⟨v, w, hx, hx'⟩ <;>
    rcases h.resolved y with ⟨hy, hy'⟩ | ⟨v', w', hy, hy'⟩ <;>
    simp only [link, hx, hx', hy, hy']
  · exact .same _
  · exact .write ..
  · exact .write ..
  · exact settled_congr h id [x, y] ▸ .same _

theorem linkThree_sameEffect (h : a.SameFlow b) (id : DeviceId) (x sum y : ShaftId) :
    SameEffect (linkThree id a x sum y) (linkThree id b x sum y) := by
  rcases h.resolved x with ⟨hx, hx'⟩ | ⟨v, w, hx, hx'⟩ <;>
    rcases h.resolved sum with ⟨hs, hs'⟩ | ⟨vs, ws, hs, hs'⟩ <;>
    rcases h.resolved y with ⟨hy, hy'⟩ | ⟨vy, wy, hy, hy'⟩ <;>
    simp only [linkThree, hx, hx', hs, hs', hy, hy']
  case inr.inr.inr => exact settled_congr h id [x, sum, y] ▸ .same _
  all_goals first
    | exact .same _
    | exact .write ..

theorem drive_sameEffect (h : a.SameFlow b) (id : DeviceId) (output : ShaftId)
    (v? w? : Option Float) (hv : v?.isSome = w?.isSome) :
    SameEffect (drive id a output v?) (drive id b output w?) := by
  simp only [drive, claimed_congr h]
  cases claimed id output b with
  | error e => exact .same _
  | ok done =>
    cases done with
    | some answer => exact .same _
    | none =>
      cases v? with
      | none =>
        obtain rfl : w? = none := by simpa using hv.symm
        exact .same _
      | some v =>
        obtain ⟨w, rfl⟩ := Option.isSome_iff_exists.mp hv.symm
        exact .write ..

theorem integrator_sameEffect (h : a.SameFlow b) (id : DeviceId) {i j : Integrator}
    (hin : i.input = j.input) (hout : i.output = j.output) :
    SameEffect (i.resolve id a).2 (j.resolve id b).2 := by
  rw [Integrator.resolve, Integrator.resolve, claimed_congr h, hin, hout]
  cases claimed id j.output b with
  | error e => exact .same _
  | ok done =>
    cases done with
    | some answer => exact .same _
    | none =>
      rcases h.resolved j.input with ⟨hi, hi'⟩ | ⟨v, w, hi, hi'⟩
      · simp only [hi, hi']
        exact .same _
      · simp only [hi, hi']
        exact .write ..

/-- Looking up a height changes nothing but the level. -/
theorem height_fst (t : FunctionTable) : ∃ level, t.height.1 = { t with level } := by
  unfold FunctionTable.height
  split
  · exact ⟨t.level, rfl⟩
  · split
    · exact ⟨_, rfl⟩
    · exact ⟨t.level, rfl⟩

/-- Once its input turns, a table whose output is open writes it, unless its curve fails. -/
theorem functionTable_open {t : FunctionTable} {shafts : Shafts} {id : DeviceId} {turn : Float}
    (hc : claimed id t.output shafts = .ok none) (hi : (shafts.get t.input).resolved = some turn) :
    (∃ v, (t.resolve id shafts).2 = .ok (.write t.output v)) ∨
      ∃ e, (t.resolve id shafts).2 = .error (.expression id e) := by
  simp only [FunctionTable.resolve, hc, hi]
  cases hh : t.height with
  | mk t' answer =>
    obtain ⟨level, rfl⟩ : ∃ level, t' = { t with level } := by simpa [hh] using height_fst t
    cases answer with
    | error e => exact .inr ⟨e, rfl⟩
    | ok old =>
      dsimp only
      cases t.curve.eval (t.position + turn) with
      | error e => exact .inr ⟨e, rfl⟩
      | ok new => exact .inl ⟨new - old, rfl⟩

theorem functionTable_sameEffect (h : a.SameFlow b) (id : DeviceId) {t u : FunctionTable}
    (hin : t.input = u.input) (hout : t.output = u.output) :
    SameEffect (t.resolve id a).2 (u.resolve id b).2 := by
  have hclaim : claimed id t.output a = claimed id u.output b := by rw [claimed_congr h, hout]
  cases hc : claimed id u.output b with
  | error e =>
    simp only [FunctionTable.resolve, hclaim, hc]
    exact .same _
  | ok done =>
    cases done with
    | some answer =>
      simp only [FunctionTable.resolve, hclaim, hc]
      exact .same _
    | none =>
      rcases h.resolved u.input with ⟨hi, hi'⟩ | ⟨v, w, hi, hi'⟩
      · simp only [FunctionTable.resolve, hclaim, hc, hin, hi, hi']
        exact .same _
      · rcases functionTable_open (hclaim.trans hc) (hin ▸ hi) with ⟨x, hx⟩ | ⟨e, he⟩
        · rcases functionTable_open hc hi' with ⟨y, hy⟩ | ⟨e, he⟩
          · rw [hx, hy, hout]
            exact .write ..
          · exact he ▸ .right ..
        · exact he ▸ .left ..

/-- Devices of one kind at the same shafts concur, whatever their parameters and positions. -/
theorem resolve_sameEffect (h : a.SameFlow b) (id : DeviceId) {d e : Device}
    (hf : d.fitting = e.fitting) : SameEffect (d.resolve id a).2 (e.resolve id b).2 := by
  cases d with
  | motor shaft rotation reversed =>
    cases e <;> simp [fitting, kind, connections] at hf
    subst hf
    exact drive_sameEffect h id shaft (some _) (some _) rfl
  | gear x y =>
    cases e <;> simp [fitting, kind, connections] at hf
    obtain ⟨rfl, rfl⟩ := hf
    exact link_sameEffect h id x y ..
  | gearPair x y factor =>
    cases e <;> simp [fitting, kind, connections] at hf
    obtain ⟨rfl, rfl⟩ := hf
    exact link_sameEffect h id x y ..
  | crossConnect x y reversed =>
    cases e <;> simp [fitting, kind, connections] at hf
    obtain ⟨rfl, rfl⟩ := hf
    exact link_sameEffect h id x y ..
  | differential x sum y =>
    cases e <;> simp [fitting, kind, connections] at hf
    obtain ⟨rfl, rfl, rfl⟩ := hf
    exact linkThree_sameEffect h id x sum y
  | multiplier input output factor =>
    cases e <;> simp [fitting, kind, connections] at hf
    obtain ⟨rfl, rfl⟩ := hf
    refine drive_sameEffect h id output _ _ ?_
    rcases h.resolved input with ⟨hi, hi'⟩ | ⟨v, w, hi, hi'⟩ <;> simp [hi, hi']
  | integrator i =>
    cases e <;> simp [fitting, kind, connections] at hf
    exact integrator_sameEffect h id hf.1 hf.2.2
  | functionTable t =>
    cases e <;> simp [fitting, kind, connections] at hf
    exact functionTable_sameEffect h id hf.1 hf.2
  | outputTable t =>
    cases e <;> simp [fitting, kind] at hf
    exact .same _
  | dial d =>
    cases e <;> simp [fitting, kind] at hf
    exact .same _

end SameEffect

theorem fitting_integrator (i : Integrator) (id : DeviceId) (shafts : Shafts) :
    (Device.integrator (i.resolve id shafts).1).fitting = (Device.integrator i).fitting := by
  unfold Integrator.resolve
  cases claimed id i.output shafts with
  | error e => rfl
  | ok done =>
    cases done with
    | some answer => rfl
    | none => cases (shafts.get i.input).resolved <;> rfl

theorem fitting_functionTable (t : FunctionTable) (id : DeviceId) (shafts : Shafts) :
    (Device.functionTable (t.resolve id shafts).1).fitting = (Device.functionTable t).fitting := by
  unfold FunctionTable.resolve
  cases claimed id t.output shafts with
  | error e => rfl
  | ok done =>
    cases done with
    | some answer => rfl
    | none =>
      cases (shafts.get t.input).resolved with
      | none => rfl
      | some turn =>
        cases hh : t.height with
        | mk t' answer =>
          obtain ⟨level, rfl⟩ : ∃ level, t' = { t with level } := by simpa [hh] using height_fst t
          cases answer with
          | error e => rfl
          | ok old =>
            dsimp only
            cases t.curve.eval (t.position + turn) <;> rfl

theorem fitting_resolve (d : Device) (id : DeviceId) (shafts : Shafts) :
    (d.resolve id shafts).1.fitting = d.fitting := by
  cases d with
  | integrator i => exact fitting_integrator i id shafts
  | functionTable t => exact fitting_functionTable t id shafts
  | _ => rfl

end Device

namespace Tick

/-- Running ticks of machines wired alike, in which the same has been resolved. -/
structure Abreast (a b : Tick) : Prop where
  fittings : a.devices.map Device.fitting = b.devices.map Device.fitting
  flow : a.shafts.SameFlow b.shafts
  waiting : a.waiting = b.waiting

/-- Ticks that have stayed abreast, or stopped at the same error, or one of which stopped because a
curve failed. -/
inductive Parallel : Tick × Option MachineError → Tick × Option MachineError → Prop
  | passed {a b : Tick} (h : a.Abreast b) : Parallel (a, none) (b, none)
  | failed (a b : Tick) (e : MachineError) : Parallel (a, some e) (b, some e)
  | left (a : Tick) (id : DeviceId) (e : ExprError) (r : Tick × Option MachineError) :
      Parallel (a, some (.expression id e)) r
  | right (r : Tick × Option MachineError) (b : Tick) (id : DeviceId) (e : ExprError) :
      Parallel r (b, some (.expression id e))

theorem Parallel.andThen {r r' : Tick × Option MachineError} (h : Parallel r r')
    {next next' : Tick → Tick × Option MachineError}
    (hnext : ∀ a b, a.Abreast b → Parallel (next a) (next' b)) :
    Parallel (andThen next r) (andThen next' r') := by
  cases h with
  | passed h => exact hnext _ _ h
  | failed a b e => exact .failed a b e
  | left a id e r => exact .left a id e _
  | right r b id e => exact .right _ b id e

section Parallel

variable {r r' : Tick × Option MachineError}

theorem Parallel.abreast (h : Parallel r r') (hr : r.2 = none) (hr' : r'.2 = none) :
    r.1.Abreast r'.1 := by
  cases h with
  | passed h => exact h
  | failed a b e => exact absurd hr (by simp)
  | left a id e r => exact absurd hr (by simp)
  | right r b id e => exact absurd hr' (by simp)

theorem Parallel.duplicate (h : Parallel r r') {x : ShaftId} {id : DeviceId}
    (hr : r.2 = some (.duplicateResolution x id)) :
    r'.2 = some (.duplicateResolution x id) ∨ ∃ i e, r'.2 = some (.expression i e) := by
  cases h with
  | passed h => exact absurd hr (by simp)
  | failed a b e => exact .inl hr
  | left a i e r => exact absurd hr (by simp)
  | right r b i e => exact .inr ⟨i, e, rfl⟩

theorem Parallel.not_duplicate (h : Parallel r r') (hr : r.2 = none) (x : ShaftId)
    (id : DeviceId) : r'.2 ≠ some (.duplicateResolution x id) := by
  cases h with
  | passed h => simp
  | failed a b e => exact absurd hr (by simp)
  | left a i e r => exact absurd hr (by simp)
  | right r b i e => simp

end Parallel

section Abreast

variable {a b : Tick}

theorem Abreast.device (h : a.Abreast b) {i : Nat} {d : Device} (hd : a.devices[i]? = some d) :
    ∃ e, b.devices[i]? = some e ∧ d.fitting = e.fitting := by
  have hi := congrArg (·[i]?) h.fittings
  simp only [Array.getElem?_map, hd, Option.map_some] at hi
  obtain ⟨e, he, hf⟩ := Option.map_eq_some_iff.mp hi.symm
  exact ⟨e, he, hf.symm⟩

theorem Abreast.replace (h : a.Abreast b) {d e : Device} (hf : d.fitting = e.fitting) (i : Nat) :
    Abreast { a with devices := a.devices.setIfInBounds i d }
      { b with devices := b.devices.setIfInBounds i e } where
  fittings := by simp only [Array.map_setIfInBounds, h.fittings, hf]
  flow := h.flow
  waiting := h.waiting

theorem Abreast.write (h : a.Abreast b) (id : DeviceId) (x : ShaftId) (v w : Float) :
    Parallel (a.apply id (.write x v)) (b.apply id (.write x w)) := by
  simp only [Tick.apply, ShaftState.resolve?, ← h.flow.ready x]
  cases (a.shafts.get x).ready with
  | true => exact .failed ..
  | false =>
    refine .passed ⟨h.fittings, h.flow.set x rfl rfl, ?_⟩
    rw [h.waiting]

theorem Abreast.apply (h : a.Abreast b) (id : DeviceId) (r : Resolution) :
    Parallel (a.apply id r) (b.apply id r) := by
  cases r with
  | write x v => exact h.write id x v v
  | idle => exact .passed h
  | unchanged x => exact .passed h

theorem Abreast.ask (h : a.Abreast b) (id : DeviceId) : Parallel (a.ask id) (b.ask id) := by
  cases hd : a.devices[id.index]? with
  | none =>
    have hb : b.devices[id.index]? = none := by
      have hi := congrArg (·[id.index]?) h.fittings
      simpa [hd] using hi.symm
    simp only [Tick.ask, hd, hb]
    exact .passed h
  | some d =>
    obtain ⟨e, he, hf⟩ := h.device hd
    have hnew : (d.resolve id a.shafts).1.fitting = (e.resolve id b.shafts).1.fitting := by
      rw [Device.fitting_resolve, Device.fitting_resolve, hf]
    have hafter := h.replace hnew id.index
    have hanswer := Device.resolve_sameEffect h.flow id hf
    rw [ask_eq hd, ask_eq he]
    generalize (d.resolve id a.shafts).2 = answer at hanswer ⊢
    generalize (e.resolve id b.shafts).2 = answer' at hanswer ⊢
    cases hanswer with
    | same =>
      cases answer with
      | ok r => exact hafter.apply id r
      | error err => exact .failed ..
    | write x v w => exact hafter.write id x v w
    | left i err r => exact .left ..
    | right r i err => exact .right ..

theorem Abreast.askAll (h : a.Abreast b) (ids : List DeviceId) :
    Parallel (a.askAll ids) (b.askAll ids) := by
  induction ids generalizing a b with
  | nil => exact .passed h
  | cons id ids ih =>
    rw [askAll_cons, askAll_cons]
    exact (h.ask id).andThen fun _ _ => ih

theorem Abreast.drain (h : a.Abreast b) (topology : Topology) (count : Nat) :
    Parallel (Tick.drain topology count a) (Tick.drain topology count b) := by
  induction count generalizing a b with
  | zero => exact .passed h
  | succ count ih =>
    cases hw : b.waiting with
    | nil =>
      simp only [Tick.drain, h.waiting, hw]
      exact .passed h
    | cons x rest =>
      have htaken : Abreast { a with waiting := rest } { b with waiting := rest } :=
        ⟨h.fittings, h.flow, rfl⟩
      rw [drain_cons topology count (h.waiting.trans hw), drain_cons topology count hw]
      exact (htaken.askAll (topology.reactive x)).andThen fun _ _ => ih

theorem Abreast.propagate (h : a.Abreast b) (topology : Topology) :
    Parallel (Tick.propagate topology a) (Tick.propagate topology b) := by
  rw [propagate_eq, propagate_eq]
  refine (h.ask topology.motor).andThen fun a' b' h' => ?_
  rw [h'.flow.size]
  exact h'.drain topology b'.shafts.size

end Abreast

end Tick

theorem Response.ofError?_eq_failed_iff {err : Option MachineError} {e : MachineError} :
    Response.ofError? err = .failed e ↔ err = some e := by
  cases err <;> simp [Response.ofError?]

namespace Simulator

theorem Continues.between {s a b : Simulator} (h : s.Continues a) (h' : s.Continues b) :
    a.Continues b :=
  ⟨h'.rest, h'.topology.trans h.topology.symm, h'.fittings.trans h.fittings.symm⟩

theorem Continues.abreast {s s' : Simulator} (h : s.Continues s') (hs : s.AtRest) :
    s.start.Abreast s'.start where
  fittings := h.fittings.symm
  flow := by
    refine ⟨?_, fun x => ?_, fun x => ?_⟩
    · rw [start, start, hs.size, h.rest.size, h.topology]
    · rw [start, start, hs.get_eq, h.rest.get_eq]
      rfl
    · rw [start, start, hs.get_eq, h.rest.get_eq]
      rfl
  waiting := rfl

/-- The next ticks of two machines wired alike take the same course. -/
theorem Continues.parallel {s s' : Simulator} (h : s.Continues s') (hs : s.AtRest) :
    Tick.Parallel s.propagated s'.propagated := by
  rw [propagated, propagated, h.topology]
  exact (h.abreast hs).propagate s.topology

theorem step_snd (s : Simulator) : s.step.2 = s.propagated.2 := by
  rw [step_eq, conclude_snd]

theorem AtRest.untouched_step {s : Simulator} (h : s.AtRest) {x : ShaftId}
    (hx : s.step.2 = none → ¬ s.propagated.1.shafts.Ready x) :
    s.step.1.shafts.get x = s.shafts.get x := by
  have hrun := ((scheduled_propagated h).ended h).running
  rw [step_snd] at hx
  rw [step_eq]
  cases hp : s.propagated with
  | mk t err =>
    rw [hp] at hrun hx
    cases err with
    | none =>
      have ht : t.shafts.get x = s.shafts.get x := hrun.untouched x (hx rfl)
      change Shafts.get (t.shafts.map ShaftState.commit) x = s.shafts.get x
      rw [Shafts.get_map rfl, ht, h.get_eq x]
      rfl
    | some e => simp only [Simulator.conclude, hrun.rollback_shafts h]

theorem Built.get_eq_rest {s : Simulator} (h : s.Built) (x : ShaftId) : s.shafts.get x = .rest := by
  obtain ⟨pieces, hb⟩ := h
  obtain ⟨-, topology, -, rfl⟩ := (Assembly.build_eq_ok_iff _ s).mp hb
  exact Shafts.get_replicate_rest _ x

/-- A shaft that one successful tick leaves alone is left alone by all operations. -/
theorem AtRest.kept_rest {s : Simulator} (h : s.AtRest) (hok : s.step.2 = none) {x : ShaftId}
    (hx : ¬ s.propagated.1.shafts.Ready x) :
    Kept fun s' => s.Continues s' ∧ s'.shafts.get x = .rest where
  step s' hs' := by
    refine ⟨hs'.1.trans hs'.1.rest.step, ?_⟩
    rw [hs'.1.rest.untouched_step fun hok' => ?_, hs'.2]
    rw [step_snd] at hok hok'
    exact mt (((hs'.1.parallel h).abreast hok hok').flow.ready_iff x).mpr hx
  turn s' r hs' := ⟨hs'.1.trans (hs'.1.rest.turn r), hs'.2⟩
  reset s' hs' := ⟨hs'.1.trans hs'.1.rest.reset, Shafts.get_replicate_rest _ x⟩

theorem Continues.perform_ne_duplicate {s s' : Simulator} (h : s.Continues s') (hs : s.AtRest)
    (hok : s.step.2 = none) (op : Operation) (x : ShaftId) (id : DeviceId) :
    (s'.perform op).2 ≠ .failed (.duplicateResolution x id) := by
  have hstep : ∀ s'', s.Continues s'' → s''.step.2 ≠ some (.duplicateResolution x id) := by
    intro s'' h'
    rw [step_snd] at hok ⊢
    exact (h'.parallel hs).not_duplicate hok x id
  cases op with
  | step => exact mt Response.ofError?_eq_failed_iff.mp (hstep s' h)
  | run count =>
    refine mt Response.ofError?_eq_failed_iff.mp fun hfail => ?_
    obtain ⟨done, -, -, hlast, -⟩ := exists_of_run_failed hfail
    exact hstep _ (h.trans (h.rest.run done)) hlast
  | setMotorRotation rotation =>
    rw [Simulator.perform]
    split <;> simp
  | reset => simp [Simulator.perform]

/-- Flow does not depend on values. From any two states of a machine, ticks that succeed resolve the
same shafts by the same devices, and where one finds two drivers for a shaft the other finds the
same, unless a curve fails before. Once a tick has succeeded no operation ever finds two drivers,
and a shaft that it left alone never turns. -/
theorem flow_independent {s : Simulator} (h : s.Built) (ops ops' : List Operation) :
    ((s.after ops).step.2 = none → (s.after ops').step.2 = none → ∀ x,
      ((s.after ops).propagated.1.shafts.Ready x ↔ (s.after ops').propagated.1.shafts.Ready x) ∧
      ∀ id, (s.after ops).propagated.1.shafts.DrivenBy x id ↔
        (s.after ops').propagated.1.shafts.DrivenBy x id) ∧
    (∀ x id, (s.after ops).step.2 = some (.duplicateResolution x id) →
      (s.after ops').step.2 = some (.duplicateResolution x id) ∨
        ∃ i e, (s.after ops').step.2 = some (.expression i e)) ∧
    ((s.after ops).step.2 = none →
      (∀ op x id, ((s.after ops').perform op).2 ≠ .failed (.duplicateResolution x id)) ∧
      ∀ x, ¬ (s.after ops).propagated.1.shafts.Ready x →
        ((s.after ops').shafts.get x).current = 0.0) := by
  have hs := h.atRest
  have hrest := (hs.after ops).rest
  have hcont : (s.after ops).Continues (s.after ops') := (hs.after ops).between (hs.after ops')
  have hpar := hcont.parallel hrest
  refine ⟨fun hok hok' x => ?_, fun x id hdup => ?_, fun hok => ⟨?_, fun x hx => ?_⟩⟩
  · rw [step_snd] at hok hok'
    have hflow := (hpar.abreast hok hok').flow
    exact ⟨hflow.ready_iff x, hflow.drivenBy_iff x⟩
  · rw [step_snd] at hdup ⊢
    exact hpar.duplicate hdup
  · exact hcont.perform_ne_duplicate hrest hok
  · have hstart : (s.after ops).Continues s := (hs.after ops).between hs.continues
    have hend := (hrest.kept_rest hok hx).after ⟨hstart, h.get_eq_rest x⟩ ops'
    rw [hend.2]
    rfl

/-- Whatever the crank of the tripler does, the differential drives the triple. -/
theorem flow_independent_tripler : ∃ s : Simulator, s.Built ∧ s.step.2 = none ∧
    s.propagated.1.shafts.DrivenBy ⟨2⟩ ⟨2⟩ ∧ ∀ ops,
      ((s.after ops).step.2 = none → (s.after ops).propagated.1.shafts.DrivenBy ⟨2⟩ ⟨2⟩) ∧
      ∀ op x id, ((s.after ops).perform op).2 ≠ .failed (.duplicateResolution x id) := by
  have hb : ∃ s, (Assembly.ofPieces Piece.tripler).build = .ok s ∧ s.step.2 = none ∧
      s.propagated.1.shafts.DrivenBy ⟨2⟩ ⟨2⟩ := ⟨_, rfl, by rfl, by rfl, by rfl⟩
  obtain ⟨s, hs, hok, hd⟩ := hb
  refine ⟨s, ⟨_, hs⟩, hok, hd, fun ops => ⟨fun hok' => ?_, ?_⟩⟩
  · exact (((flow_independent ⟨_, hs⟩ [] ops).1 hok hok' ⟨2⟩).2 ⟨2⟩).mp hd
  · exact ((flow_independent ⟨_, hs⟩ [] ops).2.2 hok).1

end Simulator

end DifferentialAnalyzer
