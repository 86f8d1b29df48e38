import DifferentialAnalyzer.Proofs.Machine.Flow

/-! What a device does with the shafts it is asked about, be they as they may. It gives a rotation
only along an open path to a shaft that has none, and once it drives the target of such a path there
is nothing left for it to do. It reports a shaft only if another device drives it. -/

namespace DifferentialAnalyzer

namespace Device

/-- A path through the device is open and ends at this shaft. -/
def LeadsTo (d : Device) (shafts : Shafts) (x : ShaftId) : Prop :=
  ∃ p ∈ d.paths, p.target = x ∧ p.Open shafts.Ready

theorem LeadsTo.mono {d e : Device} {a b : Shafts} {x : ShaftId} (h : d.LeadsTo a x)
    (hf : e.fitting = d.fitting) (hready : ∀ y, a.Ready y → b.Ready y) : e.LeadsTo b x := by
  obtain ⟨p, hp, rfl, ho⟩ := h
  exact ⟨p, paths_eq_of_fitting_eq hf ▸ hp, rfl, fun n hn => hready n (ho n hn)⟩

theorem leadsTo_of_mem {d : Device} {shafts : Shafts} {x : ShaftId} (needs : List ShaftId)
    (hp : ⟨needs, x⟩ ∈ d.paths) (hn : ∀ n ∈ needs, shafts.Ready n) : d.LeadsTo shafts x :=
  ⟨_, hp, rfl, hn⟩

section Write

variable {id : DeviceId} {shafts : Shafts} {x : ShaftId} {v : Float}

theorem ne_write_of_settled {linked : List ShaftId} :
    settled id linked shafts ≠ .ok (.write x v) := by
  unfold settled
  split
  · simp
  · split <;> simp

theorem ne_write_of_claimed {output : ShaftId} :
    claimed id output shafts ≠ .ok (some (.write x v)) := by
  unfold claimed
  split
  · simp
  · split <;> simp

theorem not_ready_of_claimed {output : ShaftId} (h : claimed id output shafts = .ok none) :
    ¬ shafts.Ready output := by
  intro hr
  have hb : (shafts.get output).ready = true := hr
  rw [claimed, hb] at h
  split at h <;> cases h

theorem write_of_link {a b : ShaftId} {f g : Float → Float}
    (h : link id shafts a b f g = .ok (.write x v)) :
    x = b ∧ shafts.Ready a ∧ ¬ shafts.Ready b ∨ x = a ∧ shafts.Ready b ∧ ¬ shafts.Ready a := by
  unfold link at h
  split at h
  next ha hb =>
    obtain ⟨rfl, -⟩ := Resolution.write.inj (Except.ok.inj h)
    exact .inl ⟨rfl, (Shafts.resolved_eq_some_iff.mp ha).1, Shafts.resolved_eq_none_iff.mp hb⟩
  next ha hb =>
    obtain ⟨rfl, -⟩ := Resolution.write.inj (Except.ok.inj h)
    exact .inr ⟨rfl, (Shafts.resolved_eq_some_iff.mp hb).1, Shafts.resolved_eq_none_iff.mp ha⟩
  next => exact absurd h ne_write_of_settled
  next => cases h

theorem write_of_linkThree {a sum b : ShaftId}
    (h : linkThree id shafts a sum b = .ok (.write x v)) :
    x = a ∧ shafts.Ready sum ∧ shafts.Ready b ∧ ¬ shafts.Ready a ∨
    x = sum ∧ shafts.Ready a ∧ shafts.Ready b ∧ ¬ shafts.Ready sum ∨
    x = b ∧ shafts.Ready a ∧ shafts.Ready sum ∧ ¬ shafts.Ready b := by
  unfold linkThree at h
  split at h
  next ha hs hb =>
    obtain ⟨rfl, -⟩ := Resolution.write.inj (Except.ok.inj h)
    exact .inl ⟨rfl, (Shafts.resolved_eq_some_iff.mp hs).1, (Shafts.resolved_eq_some_iff.mp hb).1,
      Shafts.resolved_eq_none_iff.mp ha⟩
  next ha hs hb =>
    obtain ⟨rfl, -⟩ := Resolution.write.inj (Except.ok.inj h)
    exact .inr (.inl ⟨rfl, (Shafts.resolved_eq_some_iff.mp ha).1,
      (Shafts.resolved_eq_some_iff.mp hb).1, Shafts.resolved_eq_none_iff.mp hs⟩)
  next ha hs hb =>
    obtain ⟨rfl, -⟩ := Resolution.write.inj (Except.ok.inj h)
    exact .inr (.inr ⟨rfl, (Shafts.resolved_eq_some_iff.mp ha).1,
      (Shafts.resolved_eq_some_iff.mp hs).1, Shafts.resolved_eq_none_iff.mp hb⟩)
  next => exact absurd h ne_write_of_settled
  next => cases h

theorem write_of_drive {output : ShaftId} {value? : Option Float}
    (h : drive id shafts output value? = .ok (.write x v)) :
    x = output ∧ value? = some v ∧ ¬ shafts.Ready output := by
  unfold drive at h
  cases hc : claimed id output shafts with
  | error e => simp [hc] at h
  | ok done =>
    cases done with
    | some answer =>
      have hne := @ne_write_of_claimed id shafts x v output
      simp_all
    | none =>
      have hready := not_ready_of_claimed hc
      cases value? <;> simp_all

theorem write_of_integrator {i : Integrator} (h : (i.resolve id shafts).2 = .ok (.write x v)) :
    x = i.output ∧ shafts.Ready i.input ∧ ¬ shafts.Ready i.output := by
  have hne := @ne_write_of_claimed id shafts x v i.output
  unfold Integrator.resolve at h
  cases hc : claimed id i.output shafts with
  | error e => simp [hc] at h
  | ok done =>
    cases done with
    | some answer => simp_all
    | none =>
      have hready := not_ready_of_claimed hc
      cases hr : (shafts.get i.input).resolved with
      | none => simp [hc, hr] at h
      | some turn => simp_all [(Shafts.resolved_eq_some_iff.mp hr).1]

theorem write_of_functionTable {t : FunctionTable}
    (h : (t.resolve id shafts).2 = .ok (.write x v)) :
    x = t.output ∧ shafts.Ready t.input ∧ ¬ shafts.Ready t.output := by
  have hne := @ne_write_of_claimed id shafts x v t.output
  cases hc : claimed id t.output shafts with
  | error e => simp [FunctionTable.resolve, hc] at h
  | ok done =>
    cases done with
    | some answer => simp_all [FunctionTable.resolve]
    | none =>
      cases hr : (shafts.get t.input).resolved with
      | none => simp [FunctionTable.resolve, hc, hr] at h
      | some turn =>
        rcases functionTable_open hc hr with ⟨w, hw⟩ | ⟨e, he⟩
        · obtain ⟨rfl, -⟩ := Resolution.write.inj (Except.ok.inj (h.symm.trans hw))
          exact ⟨rfl, (Shafts.resolved_eq_some_iff.mp hr).1, not_ready_of_claimed hc⟩
        · rw [h] at he
          cases he

/-- A device gives a rotation only to a shaft without one, at the end of an open path. -/
theorem leadsTo_of_resolve {d : Device} (h : (d.resolve id shafts).2 = .ok (.write x v)) :
    d.LeadsTo shafts x ∧ ¬ shafts.Ready x := by
  have hlink : ∀ {a b : ShaftId} {f g : Float → Float}, d.paths = [⟨[a], b⟩, ⟨[b], a⟩] →
      link id shafts a b f g = .ok (.write x v) → d.LeadsTo shafts x ∧ ¬ shafts.Ready x := by
    intro a b f g hp hl
    rcases write_of_link hl with ⟨rfl, ha, hb⟩ | ⟨rfl, hb, ha⟩
    · exact ⟨leadsTo_of_mem [a] (by simp [hp]) (by simpa using ha), hb⟩
    · exact ⟨leadsTo_of_mem [b] (by simp [hp]) (by simpa using hb), ha⟩
  cases d with
  | motor shaft rotation reversed =>
    have hdrive : drive id shafts shaft (some (if reversed then -rotation else rotation)) =
      .ok (.write x v) := h
    obtain ⟨rfl, -, hx⟩ := write_of_drive hdrive
    exact ⟨leadsTo_of_mem [] (by simp [paths]) (by simp), hx⟩
  | gear a b => exact hlink rfl h
  | gearPair a b factor => exact hlink rfl h
  | crossConnect a b reversed => exact hlink rfl h
  | differential a sum b =>
    rcases write_of_linkThree h with ⟨rfl, hs, hb, hx⟩ | ⟨rfl, ha, hb, hx⟩ | ⟨rfl, ha, hs, hx⟩
    · exact ⟨leadsTo_of_mem [sum, b] (by simp [paths]) (by simp [hs, hb]), hx⟩
    · exact ⟨leadsTo_of_mem [a, b] (by simp [paths]) (by simp [ha, hb]), hx⟩
    · exact ⟨leadsTo_of_mem [a, sum] (by simp [paths]) (by simp [ha, hs]), hx⟩
  | multiplier input output factor =>
    obtain ⟨rfl, hv, hx⟩ := write_of_drive h
    obtain ⟨turn, hin, -⟩ := Option.map_eq_some_iff.mp hv
    have hready := (Shafts.resolved_eq_some_iff.mp hin).1
    exact ⟨leadsTo_of_mem [input] (by simp [paths]) (by simpa using hready), hx⟩
  | integrator i =>
    obtain ⟨rfl, hin, hx⟩ := write_of_integrator h
    exact ⟨leadsTo_of_mem [i.input] (by simp [paths]) (by simpa using hin), hx⟩
  | functionTable t =>
    obtain ⟨rfl, hin, hx⟩ := write_of_functionTable h
    exact ⟨leadsTo_of_mem [t.input] (by simp [paths]) (by simpa using hin), hx⟩
  | outputTable t => simp [resolve] at h
  | dial d => simp [resolve] at h

/-- A device gives a rotation only to a shaft that it is connected to. -/
theorem target_mem_of_resolve {d : Device} (h : (d.resolve id shafts).2 = .ok (.write x v)) :
    x ∈ d.connections.map (·.1) := by
  obtain ⟨p, hp, rfl, -⟩ := (leadsTo_of_resolve h).1
  exact target_mem_connections hp

end Write

section Refusal

variable {id i : DeviceId} {shafts : Shafts} {x : ShaftId}

theorem exists_drivenBy_of_drivenElsewhere (h : (shafts.get x).drivenElsewhere id = true) :
    ∃ j ≠ id, shafts.DrivenBy x j := by
  simp only [ShaftState.drivenElsewhere, Bool.and_eq_true, Option.any_eq_true, bne_iff_ne] at h
  obtain ⟨hr, j, hj, hne⟩ := h
  exact ⟨j, hne, hr, hj⟩

theorem refused_of_claimed {output : ShaftId}
    (h : claimed id output shafts = .error (.duplicateResolution x i)) :
    i = id ∧ (shafts.get x).drivenElsewhere id = true := by
  unfold claimed at h
  split at h
  next hd =>
    obtain ⟨rfl, rfl⟩ := MachineError.duplicateResolution.inj (Except.error.inj h)
    exact ⟨rfl, hd⟩
  next => split at h <;> cases h

theorem refused_of_settled {linked : List ShaftId}
    (h : settled id linked shafts = .error (.duplicateResolution x i)) :
    i = id ∧ (shafts.get x).drivenElsewhere id = true := by
  unfold settled at h
  split at h
  next => cases h
  next last hl =>
    split at h
    next hall =>
      obtain ⟨rfl, rfl⟩ := MachineError.duplicateResolution.inj (Except.error.inj h)
      exact ⟨rfl, List.all_eq_true.mp hall _ (List.mem_of_getLast? hl)⟩
    next => cases h

theorem refused_of_link {a b : ShaftId} {f g : Float → Float}
    (h : link id shafts a b f g = .error (.duplicateResolution x i)) :
    i = id ∧ (shafts.get x).drivenElsewhere id = true := by
  unfold link at h
  split at h
  next => cases h
  next => cases h
  next => exact refused_of_settled h
  next => cases h

theorem refused_of_linkThree {a sum b : ShaftId}
    (h : linkThree id shafts a sum b = .error (.duplicateResolution x i)) :
    i = id ∧ (shafts.get x).drivenElsewhere id = true := by
  unfold linkThree at h
  split at h
  next => cases h
  next => cases h
  next => cases h
  next => exact refused_of_settled h
  next => cases h

theorem refused_of_drive {output : ShaftId} {value? : Option Float}
    (h : drive id shafts output value? = .error (.duplicateResolution x i)) :
    i = id ∧ (shafts.get x).drivenElsewhere id = true := by
  unfold drive at h
  cases hc : claimed id output shafts with
  | error e =>
    rw [hc] at h
    obtain rfl : e = .duplicateResolution x i := Except.error.inj h
    exact refused_of_claimed hc
  | ok done =>
    rw [hc] at h
    cases done <;> cases value? <;> cases h

theorem refused_of_integrator {j : Integrator}
    (h : (j.resolve id shafts).2 = .error (.duplicateResolution x i)) :
    i = id ∧ (shafts.get x).drivenElsewhere id = true := by
  unfold Integrator.resolve at h
  split at h
  next e hc =>
    obtain rfl : e = .duplicateResolution x i := Except.error.inj h
    exact refused_of_claimed hc
  next => cases h
  next => split at h <;> cases h

theorem refused_of_functionTable {t : FunctionTable}
    (h : (t.resolve id shafts).2 = .error (.duplicateResolution x i)) :
    i = id ∧ (shafts.get x).drivenElsewhere id = true := by
  unfold FunctionTable.resolve at h
  split at h
  next e hc =>
    obtain rfl : e = .duplicateResolution x i := Except.error.inj h
    exact refused_of_claimed hc
  next => cases h
  next =>
    split at h
    next => cases h
    next =>
      split at h
      next => cases h
      next =>
        dsimp only at h
        split at h <;> cases h

/-- A device reports a shaft only on its own account, and only if another device drives it. -/
theorem refused_of_resolve {d : Device}
    (h : (d.resolve id shafts).2 = .error (.duplicateResolution x i)) :
    i = id ∧ ∃ j ≠ id, shafts.DrivenBy x j := by
  suffices hh : i = id ∧ (shafts.get x).drivenElsewhere id = true from
    ⟨hh.1, exists_drivenBy_of_drivenElsewhere hh.2⟩
  cases d with
  | motor shaft rotation reversed =>
    have hdrive : drive id shafts shaft (some (if reversed then -rotation else rotation)) =
      .error (.duplicateResolution x i) := h
    exact refused_of_drive hdrive
  | gear a b => exact refused_of_link h
  | gearPair a b factor => exact refused_of_link h
  | crossConnect a b reversed => exact refused_of_link h
  | differential a sum b => exact refused_of_linkThree h
  | multiplier input output factor => exact refused_of_drive h
  | integrator j => exact refused_of_integrator h
  | functionTable t => exact refused_of_functionTable h
  | outputTable t => cases h
  | dial d => cases h

end Refusal

end Device

/-- Nothing is to be done. -/
def Resolution.Passes (r : Resolution) : Prop :=
  r = .idle ∨ ∃ x, r = .unchanged x

namespace Device

section Driven

variable {id : DeviceId} {shafts : Shafts} {x : ShaftId}

theorem drivenElsewhere_of_drivenBy (h : shafts.DrivenBy x id) :
    (shafts.get x).drivenElsewhere id = false := by
  simp [ShaftState.drivenElsewhere, h.2]

theorem claimed_of_drivenBy (h : shafts.DrivenBy x id) :
    claimed id x shafts = .ok (some (.unchanged x)) := by
  have hb : (shafts.get x).ready = true := h.1
  simp [claimed, drivenElsewhere_of_drivenBy h, hb]

theorem settled_of_drivenBy {linked : List ShaftId} (hx : x ∈ linked) (h : shafts.DrivenBy x id) :
    settled id linked shafts = .ok .idle := by
  have hall : (linked.all fun s => (shafts.get s).drivenElsewhere id) = false := by
    rw [List.all_eq_false]
    exact ⟨x, hx, by simp [drivenElsewhere_of_drivenBy h]⟩
  unfold settled
  cases linked.getLast? with
  | none => rfl
  | some last => simp [hall]

theorem link_of_drivenBy {a b : ShaftId} (f g : Float → Float) (ha : shafts.Ready a)
    (hb : shafts.Ready b) (hx : x = a ∨ x = b) (h : shafts.DrivenBy x id) :
    link id shafts a b f g = .ok .idle := by
  simp only [link, Shafts.resolved_eq_some_iff.mpr ⟨ha, rfl⟩,
    Shafts.resolved_eq_some_iff.mpr ⟨hb, rfl⟩]
  exact settled_of_drivenBy (by simpa using hx) h

theorem linkThree_of_drivenBy {a sum b : ShaftId} (ha : shafts.Ready a) (hs : shafts.Ready sum)
    (hb : shafts.Ready b) (hx : x ∈ [a, sum, b]) (h : shafts.DrivenBy x id) :
    linkThree id shafts a sum b = .ok .idle := by
  simp only [linkThree, Shafts.resolved_eq_some_iff.mpr ⟨ha, rfl⟩,
    Shafts.resolved_eq_some_iff.mpr ⟨hs, rfl⟩, Shafts.resolved_eq_some_iff.mpr ⟨hb, rfl⟩]
  exact settled_of_drivenBy hx h

theorem drive_of_drivenBy (value? : Option Float) (h : shafts.DrivenBy x id) :
    drive id shafts x value? = .ok (.unchanged x) := by
  simp [drive, claimed_of_drivenBy h]

/-- A device that drives the end of an open path passes, and stays as it is. -/
theorem resolve_of_drivenBy {d : Device} (hd : d.LeadsTo shafts x) (h : shafts.DrivenBy x id) :
    ∃ r : Resolution, r.Passes ∧ d.resolve id shafts = (d, .ok r) := by
  have hlink : ∀ {a b : ShaftId} (f g : Float → Float), d.paths = [⟨[a], b⟩, ⟨[b], a⟩] →
      link id shafts a b f g = .ok .idle := by
    intro a b f g hp
    obtain ⟨p, hm, rfl, ho⟩ := hd
    rw [hp] at hm
    rcases List.mem_pair.mp hm with rfl | rfl
    · exact link_of_drivenBy f g (ho a (by simp)) h.1 (.inr rfl) h
    · exact link_of_drivenBy f g h.1 (ho b (by simp)) (.inl rfl) h
  cases d with
  | motor shaft rotation reversed =>
    obtain ⟨p, hm, rfl, -⟩ := hd
    obtain rfl := List.mem_singleton.mp hm
    exact ⟨_, .inr ⟨shaft, rfl⟩, congrArg (Prod.mk _) (drive_of_drivenBy _ h)⟩
  | gear a b => exact ⟨_, .inl rfl, congrArg (Prod.mk _) (hlink _ _ rfl)⟩
  | gearPair a b factor => exact ⟨_, .inl rfl, congrArg (Prod.mk _) (hlink _ _ rfl)⟩
  | crossConnect a b reversed => exact ⟨_, .inl rfl, congrArg (Prod.mk _) (hlink _ _ rfl)⟩
  | differential a sum b =>
    refine ⟨_, .inl rfl, congrArg (Prod.mk _) ?_⟩
    obtain ⟨p, hm, rfl, ho⟩ := hd
    rcases List.mem_cons.mp hm with rfl | hm
    · exact linkThree_of_drivenBy h.1 (ho sum (by simp)) (ho b (by simp)) (by simp) h
    · rcases List.mem_pair.mp hm with rfl | rfl
      · exact linkThree_of_drivenBy (ho a (by simp)) h.1 (ho b (by simp)) (by simp) h
      · exact linkThree_of_drivenBy (ho a (by simp)) (ho sum (by simp)) h.1 (by simp) h
  | multiplier input output factor =>
    obtain ⟨p, hm, rfl, -⟩ := hd
    obtain rfl := List.mem_singleton.mp hm
    exact ⟨_, .inr ⟨output, rfl⟩, congrArg (Prod.mk _) (drive_of_drivenBy _ h)⟩
  | integrator i =>
    obtain ⟨p, hm, rfl, -⟩ := hd
    obtain rfl := List.mem_singleton.mp hm
    have hc : claimed id i.output shafts = .ok (some (.unchanged i.output)) := claimed_of_drivenBy h
    exact ⟨_, .inr ⟨i.output, rfl⟩, by simp only [resolve, Integrator.resolve, hc]⟩
  | functionTable t =>
    obtain ⟨p, hm, rfl, -⟩ := hd
    obtain rfl := List.mem_singleton.mp hm
    have hc : claimed id t.output shafts = .ok (some (.unchanged t.output)) := claimed_of_drivenBy h
    exact ⟨_, .inr ⟨t.output, rfl⟩, by simp only [resolve, FunctionTable.resolve, hc]⟩
  | outputTable t => exact ⟨_, .inl rfl, rfl⟩
  | dial d => exact ⟨_, .inl rfl, rfl⟩

end Driven

end Device

end DifferentialAnalyzer
