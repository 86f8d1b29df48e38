import DifferentialAnalyzer.Proofs.Topology.Acceptance

/-! Lookups in a built topology. All of them go through the rows of ports, and they say of a shaft
or of a device what was added. -/

namespace DifferentialAnalyzer.Topology

namespace Fitting

/-- A device of the list has a port in this role on the shaft. -/
def PortOn (fs : List Fitting) (id : DeviceId) (s : ShaftId) (role : PortRole) : Prop :=
  ∃ f, fs[id.index]? = some f ∧ (s, role) ∈ f.connections

theorem count_reacting_le_one {f : Fitting} (h : f.resolving.Nodup) (s : ShaftId) :
    f.reacting.count s ≤ 1 := by
  have hsub : f.reacting.Sublist f.resolving := by
    refine List.Sublist.map _ (List.monotone_filter_right _ fun c hc => ?_)
    obtain ⟨_, role⟩ := c
    cases role <;> simp_all [PortRole.reacts, PortRole.resolves]
  exact List.nodup_iff_count_le_one.mp (h.sublist hsub) s

/-- A device is found once for each of its ports. -/
theorem devices_ports (f : Fitting) (i : Nat) (s : ShaftId) (q : PortRole → Bool) :
    (((f.ports i).filter (·.shaft = s)).filter (fun p => q p.role)).map (·.device) =
      List.replicate ((f.shaftsBy q).count s) ⟨i⟩ := by
  rw [List.eq_replicate_iff]
  constructor
  · rw [List.length_map, List.count_eq_countP, shaftsBy, List.countP_map, List.countP_filter,
      ← List.countP_eq_length_filter, List.countP_filter, ports, List.countP_map]
    refine List.countP_congr fun c _ => ?_
    simp [and_comm]
  · intro id hid
    obtain ⟨p, hp, rfl⟩ := List.mem_map.mp hid
    obtain ⟨c, -, rfl⟩ := List.mem_map.mp (List.mem_of_mem_filter (List.mem_of_mem_filter hp))
    rfl

theorem devices_allPorts (fs : List Fitting) (s : ShaftId) (q : PortRole → Bool) :
    (((allPorts fs).filter (·.shaft = s)).filter (fun p => q p.role)).map (·.device) =
      fs.zipIdx.flatMap fun f => List.replicate ((f.1.shaftsBy q).count s) ⟨f.2⟩ := by
  rw [allPorts, List.filter_flatMap, List.filter_flatMap, List.map_flatMap]
  exact List.flatMap_congr fun f _ => devices_ports f.1 f.2 s q

/-- Devices that are found once at most are different ones. -/
theorem nodup_flatMap_replicate {fs : List Fitting} (count : Fitting → Nat)
    (h : ∀ f ∈ fs, count f ≤ 1) :
    (fs.zipIdx.flatMap fun f => List.replicate (count f.1) (Id.mk f.2)).Nodup := by
  rw [List.nodup_flatMap]
  constructor
  · intro f hf
    rw [List.nodup_replicate]
    exact h f.1 (List.mem_of_getElem? (List.mem_zipIdx_iff_getElem?.mp hf))
  · have hids : (fs.zipIdx.map (·.2)).Pairwise (· ≠ ·) := by
      rw [List.zipIdx_map_snd]
      exact List.nodup_range'
    refine (List.pairwise_map.mp hids).imp fun {f g} hne id hf hg => hne ?_
    have he := (List.eq_of_mem_replicate hf).symm.trans (List.eq_of_mem_replicate hg)
    exact congrArg Id.index he

theorem exists_shaftsBy_iff {fs : List Fitting} {s : ShaftId} {q : PortRole → Bool}
    {id : DeviceId} : (∃ f, fs[id.index]? = some f ∧ s ∈ f.shaftsBy q) ↔
      ∃ role, q role = true ∧ PortOn fs id s role := by
  simp only [shaftsBy, List.mem_map, List.mem_filter]
  constructor
  · rintro ⟨f, hf, ⟨_, role⟩, ⟨hc, hq⟩, rfl⟩
    exact ⟨role, hq, f, hf, hc⟩
  · rintro ⟨role, hq, f, hf, hc⟩
    exact ⟨f, hf, (s, role), ⟨hc, hq⟩, rfl⟩

end Fitting

/-- The answers of a topology are those for these devices, as they were added. -/
structure Indexed (t : Topology) (fs : List Fitting) : Prop where
  ports : t.ports.toList = Fitting.allPorts fs
  increasing : ∀ s, (t.shaftPorts s).Pairwise (·.index < ·.index)
  shaftPorts : ∀ s p, p ∈ t.shaftPorts s ↔ ∃ port, t.ports[p.index]? = some port ∧ port.shaft = s
  outside : ∀ s : ShaftId, t.shafts.size ≤ s.index → t.shaftPorts s = []
  partition : ((List.range t.shafts.size).flatMap fun i => t.shaftPorts ⟨i⟩).Perm
    ((List.range t.ports.size).map Id.mk)
  reactive : ∀ s id, id ∈ t.reactive s ↔
    Fitting.PortOn fs id s .input ∨ Fitting.PortOn fs id s .link
  reactiveOnce : ∀ s, (t.reactive s).Nodup
  drivers : ∀ s id, id ∈ t.drivers s ↔ Fitting.PortOn fs id s .output
  driver : ∀ s, (t.drivers s).length ≤ 1
  unconnected : ∀ s : ShaftId, s ∈ t.unconnected ↔ s.index < t.shafts.size ∧
    ∀ id, ¬ (Fitting.PortOn fs id s .input ∨ Fitting.PortOn fs id s .output ∨
      Fitting.PortOn fs id s .link)
  deviceShafts : ∀ i f, fs[i]? = some f → t.deviceShafts ⟨i⟩ = f.connections.map (·.1)
  noDevice : ∀ i, fs.length ≤ i → t.deviceShafts ⟨i⟩ = []
  attached : ∀ s id, s ∈ t.deviceShafts id ↔
    ∃ p ∈ t.shaftPorts s, ∃ port, t.ports[p.index]? = some port ∧ port.device = id

namespace Draft

section Build

variable {d : Draft} {t : Topology}

theorem mem_shaftPorts_iff (ht : d.build = .ok t) {s : ShaftId} {p : PortId} :
    p ∈ t.shaftPorts s ↔ ∃ port, t.ports[p.index]? = some port ∧ port.shaft = s := by
  rw [shaftPorts_of_build ht, mem_portsAt_iff, (fields_of_build ht).2.2, Array.getElem?_toList,
    Option.map_eq_some_iff]

/-- Every port stands in the row of one shaft. -/
theorem perm_shaftPorts (ht : d.build = .ok t) :
    ((List.range t.shafts.size).flatMap fun i => t.shaftPorts ⟨i⟩).Perm
      ((List.range t.ports.size).map Id.mk) := by
  have hrows : ((List.range t.shafts.size).flatMap fun i => t.shaftPorts ⟨i⟩).Nodup := by
    rw [List.nodup_flatMap]
    constructor
    · intro i _
      rw [shaftPorts_of_build ht]
      exact nodup_portsAt ..
    · refine List.nodup_range.imp fun {i j} hne p hi hj => hne ?_
      obtain ⟨port, hport, hs⟩ := (mem_shaftPorts_iff ht).mp hi
      obtain ⟨port', hport', hs'⟩ := (mem_shaftPorts_iff ht).mp hj
      obtain rfl : port = port' := Option.some.inj (hport.symm.trans hport')
      exact congrArg Id.index (hs.symm.trans hs')
  have hids : ((List.range t.ports.size).map Id.mk).Nodup :=
    List.nodup_range.map fun _ _ => congrArg Id.index
  rw [List.perm_ext_iff_of_nodup hrows hids]
  intro p
  simp only [List.mem_flatMap, List.mem_map, List.mem_range, mem_shaftPorts_iff ht]
  constructor
  · rintro ⟨i, -, port, hport, -⟩
    exact ⟨p.index, (Array.getElem?_eq_some_iff.mp hport).1, rfl⟩
  · rintro ⟨i, hi, rfl⟩
    refine ⟨t.ports[i].shaft.index, ?_, t.ports[i], Array.getElem?_eq_getElem hi, rfl⟩
    obtain ⟨hshafts, -, hports⟩ := fields_of_build ht
    have hmem : t.ports[i] ∈ d.ports.toList := by
      rw [← hports]
      exact Array.getElem_mem_toList hi
    exact hshafts ▸ shaft_lt_of_build ht hmem

variable {fs : List Fitting}

theorem Holds.mem_unconnected_iff (h : d.Holds fs) (ht : d.build = .ok t) {s : ShaftId} :
    s ∈ t.unconnected ↔ s.index < t.shafts.size ∧
      ∀ id, ¬ (Fitting.PortOn fs id s .input ∨ Fitting.PortOn fs id s .output ∨
        Fitting.PortOn fs id s .link) := by
  obtain ⟨i⟩ := s
  simp only [unconnected, List.mem_filter, List.mem_map, List.mem_range, Id.mk.injEq,
    exists_eq_right, portRecords_of_build ht, h.ports, Bool.not_eq_true', List.any_eq_false,
    Bool.not_eq_true, decide_eq_true_eq, mem_allPorts_iff]
  refine and_congr_right fun _ => ⟨fun hno id => ?_, fun hno p hp => ?_⟩
  · have hrole : ∀ role, PortRole.resolves role = true → ¬ Fitting.PortOn fs id ⟨i⟩ role := by
      rintro role hr ⟨f, hf, hc⟩
      exact Bool.false_ne_true ((hno ⟨id, ⟨i⟩, role⟩ ⟨⟨f, hf, hc⟩, rfl⟩).symm.trans hr)
    rintro (hin | hout | hlink)
    · exact hrole .input rfl hin
    · exact hrole .output rfl hout
    · exact hrole .link rfl hlink
  · obtain ⟨⟨f, hf, hc⟩, hs⟩ := hp
    have hon : Fitting.PortOn fs p.device ⟨i⟩ p.role := ⟨f, hf, hs ▸ hc⟩
    have hp := hno p.device
    cases hr : p.role <;> simp_all [PortRole.resolves]

theorem Holds.deviceShafts_eq_nil (h : d.Holds fs) (ht : d.build = .ok t) {i : Nat}
    (hi : fs.length ≤ i) : t.deviceShafts ⟨i⟩ = [] := by
  have hnode : t.nodes[i]? = none := by
    rw [(fields_of_build ht).2.1]
    exact Array.getElem?_eq_none (h.length ▸ hi)
  rw [Topology.deviceShafts, hnode]

theorem Holds.mem_deviceShafts_iff (h : d.Holds fs) (ht : d.build = .ok t) {s : ShaftId}
    {id : DeviceId} : s ∈ t.deviceShafts id ↔ ∃ role, Fitting.PortOn fs id s role := by
  obtain ⟨i⟩ := id
  cases hf : fs[i]? with
  | none =>
    rw [h.deviceShafts_eq_nil ht (List.getElem?_eq_none_iff.mp hf)]
    simp [Fitting.PortOn, hf]
  | some f =>
    rw [h.deviceShafts ht hf]
    simp [Fitting.PortOn, hf]

theorem Holds.mem_deviceShafts_iff_port (h : d.Holds fs) (ht : d.build = .ok t) {s : ShaftId}
    {id : DeviceId} : s ∈ t.deviceShafts id ↔
      ∃ p ∈ t.shaftPorts s, ∃ port, t.ports[p.index]? = some port ∧ port.device = id := by
  rw [h.mem_deviceShafts_iff ht]
  constructor
  · rintro ⟨role, f, hf, hc⟩
    have hmem : (⟨id, s, role⟩ : Port) ∈ t.ports.toList := by
      rw [(fields_of_build ht).2.2, h.ports, mem_allPorts_iff]
      exact ⟨f, hf, hc⟩
    obtain ⟨i, hi⟩ := List.mem_iff_getElem?.mp hmem
    rw [Array.getElem?_toList] at hi
    exact ⟨⟨i⟩, (mem_shaftPorts_iff ht).mpr ⟨_, hi, rfl⟩, _, hi, rfl⟩
  · rintro ⟨p, hp, port, hport, rfl⟩
    obtain ⟨port', hport', rfl⟩ := (mem_shaftPorts_iff ht).mp hp
    obtain rfl : port = port' := Option.some.inj (hport.symm.trans hport')
    have hmem : port ∈ Fitting.allPorts fs := by
      rw [← h.ports, ← (fields_of_build ht).2.2]
      exact Array.mem_toList_iff.mpr (Array.mem_of_getElem? hport)
    exact ⟨port.role, mem_allPorts_iff.mp hmem⟩

theorem Holds.mem_reactive_iff (h : d.Holds fs) (ht : d.build = .ok t) {s : ShaftId}
    {id : DeviceId} : id ∈ t.reactive s ↔
      Fitting.PortOn fs id s .input ∨ Fitting.PortOn fs id s .link := by
  refine ((h.describes ht).reactive s id).trans ?_
  refine (Fitting.exists_shaftsBy_iff (q := PortRole.reacts)).trans ?_
  constructor
  · rintro ⟨role, hr, hon⟩
    cases role with
    | input => exact .inl hon
    | link => exact .inr hon
    | _ => cases hr
  · rintro (hon | hon)
    · exact ⟨.input, rfl, hon⟩
    · exact ⟨.link, rfl, hon⟩

/-- No device is asked twice for one shaft. -/
theorem Holds.nodup_reactive (h : d.Holds fs) (ht : d.build = .ok t) (s : ShaftId) :
    (t.reactive s).Nodup := by
  have ha := h.build_isOk_iff.mp ⟨t, ht⟩
  rw [Topology.reactive, portRecords_of_build ht, h.ports, Fitting.devices_allPorts]
  exact Fitting.nodup_flatMap_replicate (·.reacting.count s) fun f hf =>
    Fitting.count_reacting_le_one (ha.distinct f hf) s

theorem Holds.mem_drivers_iff (h : d.Holds fs) (ht : d.build = .ok t) {s : ShaftId}
    {id : DeviceId} : id ∈ t.drivers s ↔ Fitting.PortOn fs id s .output := by
  rw [Topology.drivers, portRecords_of_build ht, h.ports,
    mem_devices_allPorts_iff (q := fun role => role = .output), Fitting.exists_shaftsBy_iff]
  simp only [decide_eq_true_eq, exists_eq_left]

theorem Holds.length_drivers_le_one (h : d.Holds fs) (ht : d.build = .ok t) (s : ShaftId) :
    (t.drivers s).length ≤ 1 := by
  have ha := h.build_isOk_iff.mp ⟨t, ht⟩
  have hcount : (t.drivers s).length = (outputShafts (Fitting.allPorts fs)).count s := by
    rw [Topology.drivers, portRecords_of_build ht, h.ports, List.length_map, outputShafts,
      List.count_eq_countP, List.countP_map, List.countP_filter, ← List.countP_eq_length_filter,
      List.countP_filter]
    refine List.countP_congr fun p _ => ?_
    simp [and_comm]
  rw [hcount, outputShafts_allPorts]
  exact List.nodup_iff_count_le_one.mp ha.drivers s

theorem Holds.indexed (h : d.Holds fs) (ht : d.build = .ok t) : t.Indexed fs where
  ports := (congrArg Array.toList (fields_of_build ht).2.2).trans h.ports
  increasing s := by
    rw [shaftPorts_of_build ht]
    exact pairwise_portsAt ..
  shaftPorts _ _ := mem_shaftPorts_iff ht
  outside _ hs := if_neg (Nat.not_lt.mpr hs)
  partition := perm_shaftPorts ht
  reactive _ _ := h.mem_reactive_iff ht
  reactiveOnce := h.nodup_reactive ht
  drivers _ _ := h.mem_drivers_iff ht
  driver := h.length_drivers_le_one ht
  unconnected _ := h.mem_unconnected_iff ht
  deviceShafts _ _ hf := h.deviceShafts ht hf
  noDevice _ hi := h.deviceShafts_eq_nil ht hi
  attached _ _ := h.mem_deviceShafts_iff_port ht

end Build

/-- Whatever shafts and devices a topology is built from, its lookups are exact. An id that was
given out while devices were added is the id of that device. -/
theorem index_exact (items : List Item) {t : Topology}
    (ht : (items.foldl add empty).build = .ok t) :
    t.Indexed (items.filterMap Item.fitting?) ∧
      t.shafts.toList = items.filterMap Item.shaft? ∧
      ∀ before name f after, items = before ++ .device name f :: after →
        t.deviceShafts ((before.foldl add empty).addDevice name f.kind f.connections).2 =
          f.connections.map (·.1) := by
  refine ⟨(holds_items items).indexed ht, ?_, ?_⟩
  · rw [(fields_of_build ht).1, shafts_addAll]
    rfl
  · rintro before name f after rfl
    refine (holds_items _).deviceShafts ht (f := f) ?_
    rw [(holds_items before).length, List.filterMap_append,
      List.getElem?_append_right (Nat.le_refl _), Nat.sub_self]
    rfl

/-- A motor, a gear and an integrator on three shafts, a table that watches a fourth one, and a
fifth shaft without a port. -/
def Item.integrating : List Item :=
  [.shaft "x" .horizontal, .shaft "y" .horizontal, .device "m" ⟨.motor, [(⟨0⟩, .output)]⟩,
    .device "g" ⟨.gear, [(⟨0⟩, .link), (⟨1⟩, .link)]⟩, .shaft "z" .vertical,
    .device "i" ⟨.integrator, [(⟨0⟩, .input), (⟨1⟩, .delayed), (⟨2⟩, .output)]⟩,
    .device "t" ⟨.outputTable, [(⟨3⟩, .watch), (⟨2⟩, .watch)]⟩, .shaft "u" .vertical,
    .shaft "v" .point]

theorem index_exact_integrating :
    ∃ t, (Item.integrating.foldl add empty).build = .ok t ∧
      t.Indexed (Item.integrating.filterMap Item.fitting?) ∧
      (List.range 6).map (fun i => t.shaftPorts ⟨i⟩) =
        [[⟨0⟩, ⟨1⟩, ⟨3⟩], [⟨2⟩, ⟨4⟩], [⟨5⟩, ⟨7⟩], [⟨6⟩], [], []] ∧
      t.reactive ⟨0⟩ = [⟨1⟩, ⟨2⟩] ∧ t.drivers ⟨2⟩ = [⟨2⟩] ∧ t.unconnected = [⟨3⟩, ⟨4⟩] ∧
      t.deviceShafts ⟨3⟩ = [⟨3⟩, ⟨2⟩] :=
  ⟨_, rfl, (index_exact Item.integrating rfl).1, by decide +kernel⟩

end Draft

end DifferentialAnalyzer.Topology
