import DifferentialAnalyzer.Proofs.Topology.Adjacency

/-! A draft is built exactly when its devices are accepted. Every shaft then knows the ports on it,
and with them the devices that react to it. -/

namespace DifferentialAnalyzer.Topology

namespace Draft

theorem firstRepeated_eq_none_iff {seen l : List ShaftId} :
    firstRepeated seen l = none ↔ l.Nodup ∧ ∀ s ∈ l, s ∉ seen := by
  induction l generalizing seen with
  | nil => simp [firstRepeated]
  | cons s rest ih =>
    by_cases hs : s ∈ seen
    · simp [firstRepeated, hs]
    · simp only [firstRepeated, hs, if_false, ih, List.nodup_cons, List.mem_cons, not_or]
      constructor
      · rintro ⟨hnd, hh⟩
        refine ⟨⟨fun hm => (hh s hm).1 rfl, hnd⟩, ?_⟩
        rintro x (rfl | hx)
        · exact hs
        · exact (hh x hx).2
      · rintro ⟨⟨hm, hnd⟩, hh⟩
        exact ⟨hnd, fun x hx => ⟨fun he => hm (he ▸ hx), hh x (.inr hx)⟩⟩

theorem checkPorts_eq_ok_iff (d : Draft) (ports : List (Port × Nat)) :
    checkPorts d ports = .ok () ↔
      ∀ p ∈ ports, p.1.shaft.index < d.shafts.size ∧ p.1.device.index < d.nodes.size := by
  induction ports with
  | nil => simp [checkPorts]
  | cons p rest ih =>
    obtain ⟨port, i⟩ := p
    rw [checkPorts, check_bind_eq_ok_iff, ih, List.forall_mem_cons, checkPort]
    refine and_congr_left fun _ => ?_
    split
    next h => simp [Nat.not_lt.mpr h]
    next h => split <;> simp_all

/-- The references of all ports are checked. -/
theorem checkPorts_zipIdx_eq_ok_iff (d : Draft) :
    checkPorts d d.ports.toList.zipIdx = .ok () ↔
      ∀ p ∈ d.ports.toList, p.shaft.index < d.shafts.size ∧ p.device.index < d.nodes.size := by
  rw [checkPorts_eq_ok_iff]
  conv_rhs => rw [← List.zipIdx_map_fst 0 d.ports.toList, List.forall_mem_map]

/-- The ports that a device lists are its own. -/
def Owns (d : Draft) (id : DeviceId) (node : Node) : Prop :=
  ∀ p ∈ node.ports, ∃ port, d.ports[p.index]? = some port ∧ port.device = id

theorem ownPorts_eq_ok {d : Draft} {id : DeviceId} {ids : List PortId}
    (h : ∀ p ∈ ids, ∃ port, d.ports[p.index]? = some port ∧ port.device = id) :
    d.ownPorts id ids = .ok (ids.filterMap fun p => d.ports[p.index]?) := by
  induction ids with
  | nil => rfl
  | cons p rest ih =>
    obtain ⟨⟨port, hport, hdevice⟩, hrest⟩ := List.forall_mem_cons.mp h
    simp only [ownPorts, hport, hdevice, if_true, ih hrest, ok_bind, List.filterMap_cons]

/-- A device as `checkNode` wants it. -/
def Fits (kind : DeviceKind) (ports : List Port) : Prop :=
  kind.accepts (ports.map (·.role)) = true ∧
    ((ports.filter (·.role.resolves)).map (·.shaft)).Nodup

theorem Owns.checkNode_eq {d : Draft} {id : DeviceId} {node : Node} (h : d.Owns id node) :
    d.checkNode id node = if !node.kind.accepts ((d.nodePorts node).map (·.role)) then
        .error (.portShape id node.kind ((d.nodePorts node).map (·.role)))
      else
        match firstRepeated [] (((d.nodePorts node).filter (·.role.resolves)).map (·.shaft)) with
        | some s => .error (.repeatedShaft id s)
        | none => .ok () := by
  rw [checkNode, ownPorts_eq_ok h]
  rfl

theorem Owns.checkNode_eq_ok_iff {d : Draft} {id : DeviceId} {node : Node} (h : d.Owns id node) :
    d.checkNode id node = .ok () ↔ Fits node.kind (d.nodePorts node) := by
  have hn := @firstRepeated_eq_none_iff []
    (((d.nodePorts node).filter (·.role.resolves)).map (·.shaft))
  simp only [List.not_mem_nil, not_false_eq_true, implies_true, and_true] at hn
  rw [Fits, ← hn, h.checkNode_eq]
  by_cases ha : node.kind.accepts ((d.nodePorts node).map (·.role)) = true
  · simp only [ha, Bool.not_true, Bool.false_eq_true, if_false, true_and]
    split <;> simp_all
  · simp [ha]

theorem checkNodes_eq_ok_iff {d : Draft} {nodes : List (Node × Nat)}
    (h : ∀ n ∈ nodes, d.Owns ⟨n.2⟩ n.1) :
    checkNodes d nodes = .ok () ↔ ∀ n ∈ nodes, Fits n.1.kind (d.nodePorts n.1) := by
  induction nodes with
  | nil => simp [checkNodes]
  | cons n rest ih =>
    obtain ⟨node, i⟩ := n
    obtain ⟨hn, hrest⟩ := List.forall_mem_cons.mp h
    rw [checkNodes, check_bind_eq_ok_iff, List.forall_mem_cons, ih hrest, hn.checkNode_eq_ok_iff]

def outputShafts (ports : List Port) : List ShaftId :=
  (ports.filter (·.role = .output)).map (·.shaft)

theorem checkDrivers_eq_ok_iff {seen : List (ShaftId × DeviceId)} {ports : List Port} :
    checkDrivers seen ports = .ok () ↔
      (outputShafts ports).Nodup ∧ ∀ s ∈ outputShafts ports, seen.lookup s = none := by
  induction ports generalizing seen with
  | nil => simp [checkDrivers, outputShafts]
  | cons p rest ih =>
    by_cases hr : p.role = .output
    · have ho : outputShafts (p :: rest) = p.shaft :: outputShafts rest := by
        simp [outputShafts, hr]
      rw [ho, List.nodup_cons, List.forall_mem_cons]
      cases hl : seen.lookup p.shaft with
      | some first => simp [checkDrivers, hr, hl]
      | none =>
        simp only [checkDrivers, hr, if_true, hl, ih, List.lookup_cons, true_and]
        constructor
        · rintro ⟨hnd, hh⟩
          refine ⟨⟨fun hm => by simpa using hh p.shaft hm, hnd⟩, fun s hs => ?_⟩
          have hne : (s == p.shaft) = false := by
            apply Bool.eq_false_iff.mpr
            intro he
            simpa [he] using hh s hs
          simpa [hne] using hh s hs
        · rintro ⟨⟨hm, hnd⟩, hh⟩
          refine ⟨hnd, fun s hs => ?_⟩
          have hne : (s == p.shaft) = false := by
            simpa using fun he : s = p.shaft => hm (he ▸ hs)
          simpa [hne] using hh s hs
    · have ho : outputShafts (p :: rest) = outputShafts rest := by simp [outputShafts, hr]
      rw [ho, checkDrivers, if_neg hr, ih]

theorem Holds.kinds {d : Draft} {fs : List Fitting} (h : d.Holds fs) :
    d.nodes.toList.map (·.kind) = fs.map (·.kind) := by
  have hh := congrArg (List.map Prod.fst) h.nodes
  have hz := congrArg (List.map (·.kind)) (List.zipIdx_map_fst 0 fs)
  rw [List.map_map] at hh hz
  rw [List.map_map] at hh
  exact hh.trans hz

theorem mem_motors_iff {d : Draft} {fs : List Fitting} (h : d.Holds fs) {id : DeviceId} :
    id ∈ d.motors ↔ (fs[id.index]?).map (·.kind) = some .motor := by
  rw [← List.getElem?_map, ← h.kinds, List.getElem?_map]
  simp only [motors, List.mem_map, List.mem_filter, decide_eq_true_eq, Option.map_eq_some_iff,
    Prod.exists, List.mem_zipIdx_iff_getElem?]
  constructor
  · rintro ⟨node, i, ⟨hn, hk⟩, rfl⟩
    exact ⟨node, hn, hk⟩
  · rintro ⟨node, hn, hk⟩
    exact ⟨node, id.index, ⟨hn, hk⟩, rfl⟩

theorem length_motors {d : Draft} {fs : List Fitting} (h : d.Holds fs) :
    d.motors.length = (fs.filter (·.kind = .motor)).length := by
  have hcount : ∀ (l : List Node), ((l.zipIdx.filter fun n => n.1.kind = .motor)).length =
      ((l.map (·.kind)).filter (· = .motor)).length := by
    intro l
    have hl := congrArg (List.map (·.kind)) (List.zipIdx_map_fst 0 l)
    rw [← hl, List.map_map, List.filter_map, List.length_map]
    rfl
  have hf : ((fs.map (·.kind)).filter (· = .motor)).length =
      (fs.filter (·.kind = .motor)).length := by
    rw [List.filter_map, List.length_map]
    rfl
  rw [← hf, ← h.kinds, ← hcount]
  exact List.length_map ..

theorem build_eq_ok_iff (d : Draft) (t : Topology) :
    d.build = .ok t ↔ checkPorts d d.ports.toList.zipIdx = .ok () ∧
      checkNodes d d.nodes.toList.zipIdx = .ok () ∧
      checkDrivers [] d.ports.toList = .ok () ∧ ∃ motor, d.motors = [motor] ∧
      ⟨d.shafts, d.nodes, d.ports, sortPorts d.shafts.size d.ports.toList, motor⟩ = t := by
  unfold build
  cases hports : checkPorts d d.ports.toList.zipIdx with
  | error e => simp [bind, Except.bind]
  | ok _ =>
    have hsorted := checkSorted_sortPorts fun p hp =>
      ((checkPorts_zipIdx_eq_ok_iff d).mp hports p hp).1
    cases checkNodes d d.nodes.toList.zipIdx with
    | error e => simp [bind, Except.bind]
    | ok _ =>
      rcases d.motors with _ | ⟨first, _ | ⟨second, rest⟩⟩ <;>
        cases checkDrivers [] d.ports.toList <;>
        simp [hsorted, bind, Except.bind, throw, throwThe, MonadExceptOf.throw, pure,
          Except.pure]

theorem fields_of_build {d : Draft} {t : Topology} (h : d.build = .ok t) :
    t.shafts = d.shafts ∧ t.nodes = d.nodes ∧ t.ports = d.ports := by
  obtain ⟨-, -, -, motor, -, rfl⟩ := (build_eq_ok_iff d t).mp h
  exact ⟨rfl, rfl, rfl⟩

theorem mem_allPorts_iff {fs : List Fitting} {p : Port} :
    p ∈ Fitting.allPorts fs ↔
      ∃ f, fs[p.device.index]? = some f ∧ (p.shaft, p.role) ∈ f.connections := by
  simp only [Fitting.allPorts, List.mem_flatMap, Prod.exists, List.mem_zipIdx_iff_getElem?,
    Fitting.ports, List.mem_map]
  constructor
  · rintro ⟨f, i, hf, s, role, hc, rfl⟩
    exact ⟨f, hf, hc⟩
  · rintro ⟨f, hf, hc⟩
    exact ⟨f, p.device.index, hf, p.shaft, p.role, hc, rfl⟩

/-- The devices with a port in such a role on a shaft. -/
theorem mem_devices_allPorts_iff {fs : List Fitting} {s : ShaftId} {q : PortRole → Bool}
    {id : DeviceId} :
    id ∈ (((Fitting.allPorts fs).filter (·.shaft = s)).filter (fun p => q p.role)).map (·.device) ↔
      ∃ f, fs[id.index]? = some f ∧ s ∈ f.shaftsBy q := by
  simp only [List.mem_map, List.mem_filter, mem_allPorts_iff, decide_eq_true_eq, Fitting.shaftsBy]
  constructor
  · rintro ⟨p, ⟨⟨⟨f, hf, hc⟩, rfl⟩, hrole⟩, rfl⟩
    exact ⟨f, hf, (p.shaft, p.role), ⟨hc, hrole⟩, rfl⟩
  · rintro ⟨f, hf, ⟨_, role⟩, ⟨hc, hrole⟩, rfl⟩
    exact ⟨⟨id, _, role⟩, ⟨⟨⟨f, hf, hc⟩, rfl⟩, hrole⟩, rfl⟩

theorem outputShafts_allPorts (fs : List Fitting) :
    outputShafts (Fitting.allPorts fs) = fs.flatMap Fitting.outputs := by
  have hz := congrArg (List.flatMap Fitting.outputs) (List.zipIdx_map_fst 0 fs)
  simp only [List.flatMap_map] at hz
  rw [← hz, outputShafts, Fitting.allPorts, List.filter_flatMap, List.map_flatMap]
  apply List.flatMap_congr
  intro f _
  simp only [Fitting.ports, Fitting.outputs, List.filter_map, List.map_map]
  rfl

theorem fits_ports_iff (f : Fitting) (i : Nat) : Fits f.kind (f.ports i) ↔
    f.kind.accepts (f.connections.map (·.2)) = true ∧ f.resolving.Nodup := by
  simp only [Fits, Fitting.ports, Fitting.resolving, List.filter_map, List.map_map]
  rfl

theorem forall_fits_iff (fs : List Fitting) (i : Nat) :
    (∀ x ∈ (fs.zipIdx i).map fun f => (f.1.kind, f.1.ports f.2), Fits x.1 x.2) ↔
      ∀ f ∈ fs, f.kind.accepts (f.connections.map (·.2)) = true ∧ f.resolving.Nodup := by
  induction fs generalizing i with
  | nil => simp
  | cons f fs ih =>
    rw [List.zipIdx_cons, List.map_cons, List.forall_mem_cons, ih, List.forall_mem_cons,
      fits_ports_iff]

theorem Holds.forall_nodes_iff {d : Draft} {fs : List Fitting} (h : d.Holds fs) :
    (∀ n ∈ d.nodes.toList.zipIdx, Fits n.1.kind (d.nodePorts n.1)) ↔
      ∀ f ∈ fs, f.kind.accepts (f.connections.map (·.2)) = true ∧ f.resolving.Nodup := by
  have hn : (∀ n ∈ d.nodes.toList.zipIdx, Fits n.1.kind (d.nodePorts n.1)) ↔
      ∀ x ∈ d.nodes.toList.map fun node => (node.kind, d.nodePorts node), Fits x.1 x.2 := by
    have hz := List.zipIdx_map_fst 0 d.nodes.toList
    rw [← hz, List.map_map, List.forall_mem_map, hz]
    rfl
  rw [hn, h.nodes, forall_fits_iff]

theorem Holds.getElem?_nodes {d : Draft} {fs : List Fitting} (h : d.Holds fs) {i : Nat}
    {f : Fitting} (hf : fs[i]? = some f) :
    ∃ node, d.nodes[i]? = some node ∧ node.kind = f.kind ∧ d.nodePorts node = f.ports i := by
  have hh := congrArg (·[i]?) h.nodes
  simp only [List.getElem?_map, List.getElem?_zipIdx, hf, Option.map_some, Nat.zero_add,
    Array.getElem?_toList] at hh
  obtain ⟨node, hnode, he⟩ := Option.map_eq_some_iff.mp hh
  obtain ⟨hkind, hports⟩ := Prod.mk.inj he
  exact ⟨node, hnode, hkind, hports⟩

/-- The devices of a draft in the order of the list. -/
theorem Holds.exists_fitting {d : Draft} {fs : List Fitting} (h : d.Holds fs) {n : Node × Nat}
    (hn : n ∈ d.nodes.toList.zipIdx) :
    ∃ f, fs[n.2]? = some f ∧ n.1.kind = f.kind ∧ d.nodePorts n.1 = f.ports n.2 := by
  have hnode : d.nodes[n.2]? = some n.1 := by
    rw [← Array.getElem?_toList]
    exact List.mem_zipIdx_iff_getElem?.mp hn
  have hlt : n.2 < fs.length := h.length ▸ (Array.getElem?_eq_some_iff.mp hnode).1
  obtain ⟨node, hnode', hkind, hports⟩ := h.getElem?_nodes (List.getElem?_eq_getElem hlt)
  obtain rfl : n.1 = node := Option.some.inj (hnode.symm.trans hnode')
  exact ⟨_, List.getElem?_eq_getElem hlt, hkind, hports⟩

/-- No device of a draft lists a port that is not there or belongs to another one. -/
theorem Holds.owns {d : Draft} {fs : List Fitting} (h : d.Holds fs) {n : Node × Nat}
    (hn : n ∈ d.nodes.toList.zipIdx) : d.Owns ⟨n.2⟩ n.1 := by
  intro p hp
  have hmem := List.mem_of_getElem? (List.mem_zipIdx_iff_getElem?.mp hn)
  have hbound := h.inRange n.1 hmem p hp
  have hport := Array.getElem?_eq_getElem hbound
  obtain ⟨f, -, -, hports⟩ := h.exists_fitting hn
  have hport' : d.ports[p.index] ∈ f.ports n.2 :=
    hports ▸ List.mem_filterMap.mpr ⟨p, hp, hport⟩
  obtain ⟨c, -, he⟩ := List.mem_map.mp hport'
  exact ⟨_, hport, congrArg Port.device he.symm⟩

/-- The references of a draft are right if its connections are on shafts of the draft. -/
theorem Holds.checkPorts_iff {d : Draft} {fs : List Fitting} (h : d.Holds fs) :
    checkPorts d d.ports.toList.zipIdx = .ok () ↔
      ∀ f ∈ fs, ∀ c ∈ f.connections, c.1.index < d.shafts.size := by
  rw [checkPorts_zipIdx_eq_ok_iff, h.ports, h.length]
  constructor
  · intro hr f hf c hc
    obtain ⟨i, hi⟩ := List.mem_iff_getElem?.mp hf
    exact (hr ⟨⟨i⟩, c.1, c.2⟩ (mem_allPorts_iff.mpr ⟨f, hi, hc⟩)).1
  · intro hb p hp
    obtain ⟨f, hf, hc⟩ := mem_allPorts_iff.mp hp
    exact ⟨hb f (List.mem_of_getElem? hf) _ hc, (List.getElem?_eq_some_iff.mp hf).1⟩

theorem Holds.accepted_iff {d : Draft} {fs : List Fitting} (h : d.Holds fs) :
    Accepted d.shafts.size fs ↔ checkPorts d d.ports.toList.zipIdx = .ok () ∧
      checkNodes d d.nodes.toList.zipIdx = .ok () ∧ checkDrivers [] d.ports.toList = .ok () ∧
      d.motors.length = 1 := by
  rw [h.checkPorts_iff, checkNodes_eq_ok_iff fun _ => h.owns, checkDrivers_eq_ok_iff, h.ports,
    outputShafts_allPorts, length_motors h, h.forall_nodes_iff]
  constructor
  · intro ha
    exact ⟨ha.bounded, fun f hf => ⟨ha.shape f hf, ha.distinct f hf⟩, ⟨ha.drivers, by simp⟩,
      ha.motor⟩
  · rintro ⟨hr, hn, ⟨hd, -⟩, hm⟩
    exact ⟨hr, fun f hf => (hn f hf).1, fun f hf => (hn f hf).2, hm, hd⟩

theorem Holds.build_isOk_iff {d : Draft} {fs : List Fitting} (h : d.Holds fs) :
    (∃ t, d.build = .ok t) ↔ Accepted d.shafts.size fs := by
  rw [h.accepted_iff, List.length_eq_one_iff]
  constructor
  · rintro ⟨t, ht⟩
    obtain ⟨hr, hn, hd, motor, hm, -⟩ := (build_eq_ok_iff d t).mp ht
    exact ⟨hr, hn, hd, motor, hm⟩
  · rintro ⟨hr, hn, hd, motor, hm⟩
    exact ⟨_, (build_eq_ok_iff d _).mpr ⟨hr, hn, hd, motor, hm, rfl⟩⟩

theorem shaft_lt_of_build {d : Draft} {t : Topology} (h : d.build = .ok t) {p : Port}
    (hp : p ∈ d.ports.toList) : p.shaft.index < d.shafts.size :=
  ((checkPorts_zipIdx_eq_ok_iff d).mp ((build_eq_ok_iff d t).mp h).1 p hp).1

/-- A shaft knows the ports on it, in the order in which they are numbered. -/
theorem shaftPorts_of_build {d : Draft} {t : Topology} (h : d.build = .ok t) (s : ShaftId) :
    t.shaftPorts s = portsAt d.ports.toList s := by
  obtain ⟨-, -, -, motor, -, rfl⟩ := (build_eq_ok_iff d t).mp h
  by_cases hs : s.index < d.shafts.size
  · rw [shaftPorts, if_pos hs, row_sortPorts _ hs]
  · rw [shaftPorts, if_neg hs]
    refine (List.eq_nil_iff_forall_not_mem.mpr fun p hp => hs ?_).symm
    obtain ⟨port, hport, rfl⟩ := Option.map_eq_some_iff.mp (mem_portsAt_iff.mp hp)
    exact shaft_lt_of_build h (List.mem_of_getElem? hport)

theorem portRecords_of_build {d : Draft} {t : Topology} (h : d.build = .ok t) (s : ShaftId) :
    t.portRecords s = d.ports.toList.filter (·.shaft = s) := by
  rw [portRecords, shaftPorts_of_build h, ← filterMap_portsAt, (fields_of_build h).2.2]
  simp only [Array.getElem?_toList]

theorem Holds.describes {d : Draft} {fs : List Fitting} (h : d.Holds fs) {t : Topology}
    (ht : d.build = .ok t) : t.Describes fs := by
  have ha := h.build_isOk_iff.mp ⟨t, ht⟩
  have hrecords := portRecords_of_build ht
  obtain ⟨-, -, -, motor, hm, rfl⟩ := (build_eq_ok_iff d t).mp ht
  have hmem : ∀ id : DeviceId, id = motor ↔ (fs[id.index]?).map (·.kind) = some .motor := by
    intro id
    rw [← mem_motors_iff h, hm, List.mem_singleton]
  refine ⟨ha, (hmem motor).mp rfl, fun i f hf hk => ?_, fun s id => ?_⟩
  · exact congrArg Id.index ((hmem ⟨i⟩).mpr (by simp [hf, hk]))
  · rw [reactive, hrecords, h.ports]
    exact mem_devices_allPorts_iff

/-- The shafts of a device stand in the order of its connections. -/
theorem Holds.deviceShafts {d : Draft} {fs : List Fitting} (h : d.Holds fs) {t : Topology}
    (ht : d.build = .ok t) {i : Nat} {f : Fitting} (hf : fs[i]? = some f) :
    t.deviceShafts ⟨i⟩ = f.connections.map (·.1) := by
  obtain ⟨-, -, -, motor, -, rfl⟩ := (build_eq_ok_iff d t).mp ht
  obtain ⟨node, hnode, -, hports⟩ := h.getElem?_nodes hf
  have hshafts := congrArg (List.map (·.shaft)) hports
  simp only [nodePorts, List.map_filterMap, Fitting.ports, List.map_map] at hshafts
  simpa only [Topology.deviceShafts, hnode, Function.comp_def] using hshafts

theorem map_shaft_allPorts (fs : List Fitting) :
    (Fitting.allPorts fs).map (·.shaft) = fs.flatMap fun f => f.connections.map (·.1) := by
  have hz := congrArg (List.flatMap fun f => f.connections.map (·.1)) (List.zipIdx_map_fst 0 fs)
  rw [List.flatMap_map] at hz
  rw [← hz, Fitting.allPorts, List.map_flatMap]
  apply List.flatMap_congr
  intro f _
  simp only [Fitting.ports, List.map_map]
  rfl

theorem Holds.length_portRecords {d : Draft} {fs : List Fitting} (h : d.Holds fs) {t : Topology}
    (ht : d.build = .ok t) (s : ShaftId) :
    (t.portRecords s).length = (fs.flatMap fun f => f.connections.map (·.1)).count s := by
  rw [portRecords_of_build ht, ← map_shaft_allPorts, ← h.ports, List.count_eq_countP,
    List.countP_map, List.countP_eq_length_filter]
  rfl

end Draft

end DifferentialAnalyzer.Topology
