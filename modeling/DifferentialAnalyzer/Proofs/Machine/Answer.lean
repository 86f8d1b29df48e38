import DifferentialAnalyzer.Proofs.Machine.Path

/-! What a device can answer when it is asked. Later proofs rest on `resolve_answers` and do not
look into the devices again. -/

namespace DifferentialAnalyzer

namespace Shafts

theorem drivenElsewhere_iff {shafts : Shafts} (h : shafts.Attributed) {s : ShaftId}
    {id : DeviceId} :
    (shafts.get s).drivenElsewhere id = true ↔ shafts.Ready s ∧ ¬ shafts.DrivenBy s id := by
  by_cases hr : shafts.Ready s
  · obtain ⟨other, -, hd⟩ := h s hr
    have hb : (shafts.get s).ready = true := hr
    simp [ShaftState.drivenElsewhere, DrivenBy, hr, hb, hd]
  · have hb : (shafts.get s).ready = false := by simpa [Ready] using hr
    simp [ShaftState.drivenElsewhere, hb, hr]

theorem resolved_eq_some_iff {shafts : Shafts} {s : ShaftId} {v : Float} :
    (shafts.get s).resolved = some v ↔ shafts.Ready s ∧ (shafts.get s).next = v := by
  simp [ShaftState.resolved, Ready]

theorem resolved_eq_none_iff {shafts : Shafts} {s : ShaftId} :
    (shafts.get s).resolved = none ↔ ¬ shafts.Ready s := by
  simp [ShaftState.resolved, Ready]

end Shafts

namespace Device

/-- What an asked device can do. It writes an open target, or its curve fails there, or it has
nothing to do, or other devices have resolved all that it could. -/
inductive Answers (d : Device) (id : DeviceId) (shafts : Shafts) :
    Device × Except MachineError Resolution → Prop
  | write {p : Path} {v : Float} {after : Device} (hp : p ∈ d.paths) (ho : p.Open shafts.Ready)
      (ht : ¬ shafts.Ready p.target) (hv : d.rotation shafts p.target = .ok v)
      (ha : after.uncached = (d.fired shafts).uncached) (hl : after.LevelSound) :
      Answers d id shafts (after, .ok (.write p.target v))
  | fail {p : Path} {e : ExprError} {after : Device} (hp : p ∈ d.paths)
      (ho : p.Open shafts.Ready) (ht : ¬ shafts.Ready p.target)
      (hv : d.rotation shafts p.target = .error e) (ha : after.uncached = d.uncached)
      (hl : after.LevelSound) : Answers d id shafts (after, .error (.expression id e))
  | pass {answer : Resolution} (ha : ∀ s v, answer ≠ .write s v)
      (h : d.Enabled shafts.Ready → ∃ p ∈ d.paths, shafts.DrivenBy p.target id) :
      Answers d id shafts (d, .ok answer)
  | conflict {s : ShaftId} (hs : ∃ p ∈ d.paths, p.target = s)
      (h : ∀ p ∈ d.paths, shafts.Ready p.target ∧ ¬ shafts.DrivenBy p.target id) :
      Answers d id shafts (d, .error (.duplicateResolution s id))

theorem claimed_cases {shafts : Shafts} (h : shafts.Attributed) (id : DeviceId)
    (output : ShaftId) :
    (¬ shafts.Ready output ∧ claimed id output shafts = .ok none) ∨
    (shafts.DrivenBy output id ∧ claimed id output shafts = .ok (some (.unchanged output))) ∨
    ((shafts.Ready output ∧ ¬ shafts.DrivenBy output id) ∧
      claimed id output shafts = .error (.duplicateResolution output id)) := by
  by_cases hr : shafts.Ready output
  · have hb : (shafts.get output).ready = true := hr
    by_cases hd : shafts.DrivenBy output id
    · have he : ¬ (shafts.get output).drivenElsewhere id = true := by
        rw [Shafts.drivenElsewhere_iff h]
        exact fun hh => hh.2 hd
      exact .inr (.inl ⟨hd, by simp [claimed, he, hb]⟩)
    · have he := (Shafts.drivenElsewhere_iff h).mpr ⟨hr, hd⟩
      exact .inr (.inr ⟨⟨hr, hd⟩, by simp [claimed, he]⟩)
  · have hb : (shafts.get output).ready = false := by simpa [Shafts.Ready] using hr
    exact .inl ⟨hr, by simp [claimed, ShaftState.drivenElsewhere, hb]⟩

theorem settled_cases {shafts : Shafts} (h : shafts.Attributed) (id : DeviceId)
    {linked : List ShaftId} {last : ShaftId} (hl : linked.getLast? = some last)
    (hr : ∀ s ∈ linked, shafts.Ready s) :
    ((∃ s ∈ linked, shafts.DrivenBy s id) ∧ settled id linked shafts = .ok .idle) ∨
    ((∀ s ∈ linked, shafts.Ready s ∧ ¬ shafts.DrivenBy s id) ∧
      settled id linked shafts = .error (.duplicateResolution last id)) := by
  have hall : (linked.all fun s => (shafts.get s).drivenElsewhere id) = true ↔
      ∀ s ∈ linked, shafts.Ready s ∧ ¬ shafts.DrivenBy s id := by
    simp only [List.all_eq_true, Shafts.drivenElsewhere_iff h]
  by_cases he : ∀ s ∈ linked, shafts.Ready s ∧ ¬ shafts.DrivenBy s id
  · exact .inr ⟨he, by simp [settled, hl, hall.mpr he]⟩
  · refine .inl ⟨?_, by simp [settled, hl, mt hall.mp he]⟩
    push Not at he
    obtain ⟨s, hs, hd⟩ := he
    exact ⟨s, hs, hd (hr s hs)⟩

theorem link_answers {d : Device} {id : DeviceId} {shafts : Shafts} {a b : ShaftId}
    {forward backward : Float → Float} (h : shafts.Attributed)
    (hp : d.paths = [⟨[a], b⟩, ⟨[b], a⟩]) (hf : d.fired shafts = d) (hl : d.LevelSound)
    (hfwd : d.rotation shafts b = .ok (forward (shafts.get a).next))
    (hbwd : d.rotation shafts a = .ok (backward (shafts.get b).next)) :
    d.Answers id shafts (d, link id shafts a b forward backward) := by
  by_cases ha : shafts.Ready a <;> by_cases hb : shafts.Ready b
  · have hlink : link id shafts a b forward backward = settled id [a, b] shafts := by
      simp only [link, Shafts.resolved_eq_some_iff.mpr ⟨ha, rfl⟩,
        Shafts.resolved_eq_some_iff.mpr ⟨hb, rfl⟩]
    rcases settled_cases h id (show [a, b].getLast? = some b from rfl) (by simp [ha, hb]) with
      ⟨⟨s, hs, hd⟩, he⟩ | ⟨hd, he⟩
    · rw [hlink, he]
      refine .pass (by simp) fun _ => ?_
      rcases List.mem_pair.mp hs with rfl | rfl
      · exact ⟨⟨[b], s⟩, by simp [hp], hd⟩
      · exact ⟨⟨[a], s⟩, by simp [hp], hd⟩
    · rw [hlink, he]
      exact .conflict ⟨⟨[a], b⟩, by simp [hp], rfl⟩ (by simpa [hp, and_comm] using hd)
  · have hlink : link id shafts a b forward backward =
        .ok (.write b (forward (shafts.get a).next)) := by
      simp only [link, Shafts.resolved_eq_some_iff.mpr ⟨ha, rfl⟩,
        Shafts.resolved_eq_none_iff.mpr hb]
    rw [hlink]
    exact .write (p := ⟨[a], b⟩) (by simp [hp]) (by simpa [Path.Open] using ha) hb hfwd
      (by rw [hf]) hl
  · have hlink : link id shafts a b forward backward =
        .ok (.write a (backward (shafts.get b).next)) := by
      simp only [link, Shafts.resolved_eq_some_iff.mpr ⟨hb, rfl⟩,
        Shafts.resolved_eq_none_iff.mpr ha]
    rw [hlink]
    exact .write (p := ⟨[b], a⟩) (by simp [hp]) (by simpa [Path.Open] using hb) ha hbwd
      (by rw [hf]) hl
  · have hlink : link id shafts a b forward backward = .ok .idle := by
      simp only [link, Shafts.resolved_eq_none_iff.mpr ha, Shafts.resolved_eq_none_iff.mpr hb]
    rw [hlink]
    refine .pass (by simp) ?_
    rintro ⟨p, hm, ho⟩
    rw [hp] at hm
    rcases List.mem_pair.mp hm with rfl | rfl
    · exact absurd (ho a (by simp)) ha
    · exact absurd (ho b (by simp)) hb

theorem differential_answers {id : DeviceId} {shafts : Shafts} {a sum b : ShaftId}
    (h : shafts.Attributed) (hd : (Device.differential a sum b).Distinct) :
    (Device.differential a sum b).Answers id shafts
      (.differential a sum b, linkThree id shafts a sum b) := by
  have hne : a ≠ sum ∧ a ≠ b ∧ sum ≠ b := by
    have hn : [a, sum, b].Nodup := hd
    simpa [and_assoc] using hn
  have hsome : ∀ s, shafts.Ready s → (shafts.get s).resolved = some (shafts.get s).next :=
    fun s hs => Shafts.resolved_eq_some_iff.mpr ⟨hs, rfl⟩
  have hnone : ∀ s, ¬ shafts.Ready s → (shafts.get s).resolved = none :=
    fun s hs => Shafts.resolved_eq_none_iff.mpr hs
  have hidle : ¬ (Device.differential a sum b).Enabled shafts.Ready →
      linkThree id shafts a sum b = .ok .idle → (Device.differential a sum b).Answers id shafts
        (.differential a sum b, linkThree id shafts a sum b) := by
    intro hn he
    rw [he]
    exact .pass (by simp) fun hen => absurd hen hn
  by_cases ha : shafts.Ready a <;> by_cases hs : shafts.Ready sum <;>
    by_cases hb : shafts.Ready b
  · have he : linkThree id shafts a sum b = settled id [a, sum, b] shafts := by
      simp only [linkThree, hsome a ha, hsome sum hs, hsome b hb]
    rcases settled_cases h id (show [a, sum, b].getLast? = some b from rfl)
      (by simp [ha, hs, hb]) with ⟨⟨s, hm, hw⟩, hw'⟩ | ⟨hw, hw'⟩
    · rw [he, hw']
      refine .pass (by simp) fun _ => ?_
      rcases List.mem_cons.mp hm with rfl | hm
      · exact ⟨⟨[sum, b], s⟩, by simp [paths], hw⟩
      · rcases List.mem_pair.mp hm with rfl | rfl
        · exact ⟨⟨[a, b], s⟩, by simp [paths], hw⟩
        · exact ⟨⟨[a, sum], s⟩, by simp [paths], hw⟩
    · rw [he, hw']
      exact .conflict ⟨⟨[a, sum], b⟩, by simp [paths], rfl⟩ (by simpa [paths] using hw)
  · have he : linkThree id shafts a sum b =
        .ok (.write b ((shafts.get sum).next - (shafts.get a).next)) := by
      simp only [linkThree, hsome a ha, hsome sum hs, hnone b hb]
    rw [he]
    exact .write (p := ⟨[a, sum], b⟩) (by simp [paths]) (by simp [Path.Open, ha, hs]) hb
      (by simp [rotation, hne.2.1.symm, hne.2.2.symm]) rfl trivial
  · have he : linkThree id shafts a sum b =
        .ok (.write sum ((shafts.get a).next + (shafts.get b).next)) := by
      simp only [linkThree, hsome a ha, hnone sum hs, hsome b hb]
    rw [he]
    exact .write (p := ⟨[a, b], sum⟩) (by simp [paths]) (by simp [Path.Open, ha, hb]) hs
      (by simp [rotation, hne.1.symm]) rfl trivial
  · exact hidle (by simp [Enabled, paths, Path.Open, hs, hb])
      (by simp only [linkThree, hsome a ha, hnone sum hs, hnone b hb])
  · have he : linkThree id shafts a sum b =
        .ok (.write a ((shafts.get sum).next - (shafts.get b).next)) := by
      simp only [linkThree, hnone a ha, hsome sum hs, hsome b hb]
    rw [he]
    exact .write (p := ⟨[sum, b], a⟩) (by simp [paths]) (by simp [Path.Open, hs, hb]) ha
      (by simp [rotation]) rfl trivial
  · exact hidle (by simp [Enabled, paths, Path.Open, ha, hb])
      (by simp only [linkThree, hnone a ha, hsome sum hs, hnone b hb])
  · exact hidle (by simp [Enabled, paths, Path.Open, ha, hs])
      (by simp only [linkThree, hnone a ha, hnone sum hs, hsome b hb])
  · exact hidle (by simp [Enabled, paths, Path.Open, ha, hs])
      (by simp only [linkThree, hnone a ha, hnone sum hs, hnone b hb])

theorem drive_answers {d : Device} {id : DeviceId} {shafts : Shafts} {needs : List ShaftId}
    {output : ShaftId} {value? : Option Float} (h : shafts.Attributed)
    (hp : d.paths = [⟨needs, output⟩]) (hf : d.fired shafts = d) (hl : d.LevelSound)
    (hsome : ∀ v, value? = some v → (∀ n ∈ needs, shafts.Ready n) ∧
      d.rotation shafts output = .ok v)
    (hnone : value? = none → ∃ n ∈ needs, ¬ shafts.Ready n) :
    d.Answers id shafts (d, drive id shafts output value?) := by
  rcases claimed_cases h id output with ⟨hr, hc⟩ | ⟨hd, hc⟩ | ⟨hd, hc⟩
  · cases hv : value? with
    | some v =>
      obtain ⟨hn, hv⟩ := hsome v hv
      have he : drive id shafts output (some v) = .ok (.write output v) := by
        simp [drive, hc, bind, Except.bind]
      rw [he]
      exact .write (p := ⟨needs, output⟩) (by simp [hp]) hn hr hv (by rw [hf]) hl
    | none =>
      have he : drive id shafts output none = .ok .idle := by
        simp [drive, hc, bind, Except.bind]
      rw [he]
      refine .pass (by simp) ?_
      rintro ⟨p, hm, ho⟩
      obtain ⟨n, hn, hnr⟩ := hnone hv
      rw [hp, List.mem_singleton] at hm
      exact absurd (ho n (hm ▸ hn)) hnr
  · have he : drive id shafts output value? = .ok (.unchanged output) := by
      simp [drive, hc, bind, Except.bind]
    rw [he]
    exact .pass (by simp) fun _ => ⟨⟨needs, output⟩, by simp [hp], hd⟩
  · have he : drive id shafts output value? = .error (.duplicateResolution output id) := by
      simp [drive, hc, bind, Except.bind]
    rw [he]
    exact .conflict ⟨⟨needs, output⟩, by simp [hp], rfl⟩ (by simpa [hp] using hd)

theorem integrator_answers {i : Integrator} {id : DeviceId} {shafts : Shafts}
    (h : shafts.Attributed) : (Device.integrator i).Answers id shafts
      (.integrator (i.resolve id shafts).1, (i.resolve id shafts).2) := by
  have hp : ⟨[i.input], i.output⟩ ∈ (Device.integrator i).paths := by simp [paths]
  rcases claimed_cases h id i.output with ⟨hr, hc⟩ | ⟨hd, hc⟩ | ⟨hd, hc⟩
  · by_cases hi : shafts.Ready i.input
    · have hv := Shafts.resolved_eq_some_iff.mpr ⟨hi, rfl⟩
      simp only [Integrator.resolve, hc, hv]
      exact .write hp (by simpa [Path.Open] using hi) hr rfl rfl trivial
    · have hv := Shafts.resolved_eq_none_iff.mpr hi
      simp only [Integrator.resolve, hc, hv]
      exact .pass (by simp) fun hen => absurd hen (by simp [Enabled, paths, Path.Open, hi])
  · simp only [Integrator.resolve, hc]
    exact .pass (by simp) fun _ => ⟨_, hp, hd⟩
  · simp only [Integrator.resolve, hc]
    exact .conflict ⟨_, hp, rfl⟩ (by simpa [paths] using hd)

theorem height_eq {t : FunctionTable} (h : t.LevelSound) :
    ∃ level, ({ t with level } : FunctionTable).LevelSound ∧
      t.height = ({ t with level }, t.curve.eval t.position) := by
  cases hl : t.level with
  | some y =>
    refine ⟨t.level, h, ?_⟩
    simp only [FunctionTable.height, hl, h y hl]
    rw [← hl]
  | none =>
    cases hv : t.curve.eval t.position with
    | ok y =>
      refine ⟨some y, fun z hz => ?_, by simp only [FunctionTable.height, hl, hv]⟩
      exact hv.trans (congrArg Except.ok (Option.some.inj hz))
    | error e =>
      refine ⟨t.level, h, ?_⟩
      simp only [FunctionTable.height, hl, hv]
      rw [← hl]

theorem functionTable_answers {t : FunctionTable} {id : DeviceId} {shafts : Shafts}
    (h : shafts.Attributed) (hl : t.LevelSound) : (Device.functionTable t).Answers id shafts
      (.functionTable (t.resolve id shafts).1, (t.resolve id shafts).2) := by
  have hp : ⟨[t.input], t.output⟩ ∈ (Device.functionTable t).paths := by simp [paths]
  rcases claimed_cases h id t.output with ⟨hr, hc⟩ | ⟨hd, hc⟩ | ⟨hd, hc⟩
  · by_cases hi : shafts.Ready t.input
    · have hopen : Path.Open ⟨[t.input], t.output⟩ shafts.Ready := by simpa [Path.Open] using hi
      obtain ⟨level, hlevel, hh⟩ := height_eq hl
      have hv := Shafts.resolved_eq_some_iff.mpr ⟨hi, rfl⟩
      cases hold : t.curve.eval t.position with
      | error e =>
        simp only [FunctionTable.resolve, hc, hv, hh, hold]
        exact .fail hp hopen hr (by simp [rotation, hold, bind, Except.bind]) rfl hlevel
      | ok old =>
        cases hnew : t.curve.eval (t.position + (shafts.get t.input).next) with
        | error e =>
          simp only [FunctionTable.resolve, hc, hv, hh, hold, hnew]
          exact .fail hp hopen hr (by simp [rotation, hold, hnew, bind, Except.bind]) rfl hlevel
        | ok new =>
          simp only [FunctionTable.resolve, hc, hv, hh, hold, hnew]
          exact .write hp hopen hr (by simp [rotation, hold, hnew, bind, Except.bind])
            (by simp [uncached, fired, hnew, Except.toOption]) hlevel
    · have hv := Shafts.resolved_eq_none_iff.mpr hi
      simp only [FunctionTable.resolve, hc, hv]
      exact .pass (by simp) fun hen => absurd hen (by simp [Enabled, paths, Path.Open, hi])
  · simp only [FunctionTable.resolve, hc]
    exact .pass (by simp) fun _ => ⟨_, hp, hd⟩
  · simp only [FunctionTable.resolve, hc]
    exact .conflict ⟨_, hp, rfl⟩ (by simpa [paths] using hd)

/-- All that a device can do when it is asked. -/
theorem resolve_answers {d : Device} {id : DeviceId} {shafts : Shafts}
    (h : shafts.Attributed) (hd : d.Distinct) (hl : d.LevelSound) :
    d.Answers id shafts (d.resolve id shafts) := by
  cases d with
  | motor shaft rotation reversed =>
    exact drive_answers h rfl rfl trivial
      (fun v hv => ⟨by simp, congrArg Except.ok (Option.some.inj hv)⟩) (by simp)
  | gear a b =>
    have hne : a ≠ b := by simpa [Distinct] using (show [a, b].Nodup from hd)
    exact link_answers h rfl rfl trivial (by simp [rotation]) (by simp [rotation, hne])
  | gearPair a b factor =>
    have hne : a ≠ b := by simpa [Distinct] using (show [a, b].Nodup from hd)
    exact link_answers h rfl rfl trivial (by simp [rotation]) (by simp [rotation, hne])
  | crossConnect a b reversed =>
    have hne : a ≠ b := by simpa [Distinct] using (show [a, b].Nodup from hd)
    exact link_answers h rfl rfl trivial (by simp [rotation]) (by simp [rotation, hne])
  | differential a sum b => exact differential_answers h hd
  | multiplier input output factor =>
    have hp : (Device.multiplier input output factor).paths = [⟨[input], output⟩] := rfl
    refine drive_answers h hp rfl trivial (fun v hv => ?_) fun hv => ?_
    · obtain ⟨x, hx, rfl⟩ := Option.map_eq_some_iff.mp hv
      obtain ⟨hr, rfl⟩ := Shafts.resolved_eq_some_iff.mp hx
      exact ⟨by simpa using hr, rfl⟩
    · exact ⟨input, by simp, Shafts.resolved_eq_none_iff.mp (Option.map_eq_none_iff.mp hv)⟩
  | integrator i => exact integrator_answers h
  | functionTable t => exact functionTable_answers h hl
  | outputTable t => exact .pass (by simp) (by simp [Enabled, paths])
  | dial x => exact .pass (by simp) (by simp [Enabled, paths])

end Device

end DifferentialAnalyzer
