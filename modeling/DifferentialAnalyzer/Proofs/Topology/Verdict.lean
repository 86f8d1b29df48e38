import DifferentialAnalyzer.Proofs.Topology.Acceptance

/-! Which machines are accepted, said without the checks of a draft, and what is wrong with a
machine that is not. -/

namespace DifferentialAnalyzer

namespace DeviceKind

/-- The roles of a device of this kind. -/
def HasShape (kind : DeviceKind) (roles : List PortRole) : Prop :=
  roles = kind.portShape ∨ kind = .outputTable ∧ roles = [.watch, .watch]

theorem accepts_iff_hasShape {kind : DeviceKind} {roles : List PortRole} :
    kind.accepts roles = true ↔ kind.HasShape roles := by
  by_cases hk : kind = .outputTable
  · subst hk
    simp only [accepts, HasShape, portShape, Bool.and_eq_true, decide_eq_true_eq, true_and]
    constructor
    · rintro ⟨hlen, hpre⟩
      rw [List.isPrefixOf_iff_prefix, List.prefix_iff_eq_take] at hpre
      have hle : roles.length = 2 ∨ 3 ≤ roles.length := by omega
      rcases hle with he | hle
      · rw [he] at hpre
        exact .inr hpre
      · rw [List.take_of_length_le hle] at hpre
        exact .inl hpre
    · rintro (rfl | rfl) <;> decide
  · have haccepts : kind.accepts roles = decide (roles = kind.portShape) := by
      cases kind <;> first | rfl | exact absurd rfl hk
    rw [haccepts, HasShape, decide_eq_true_eq]
    exact ⟨.inl, fun h => h.resolve_right fun ho => hk ho.1⟩

end DeviceKind

namespace Topology

/-- What the devices of a machine with `count` shafts have to be like. -/
structure WellWired (count : Nat) (fs : List Fitting) : Prop where
  shafts : ∀ f ∈ fs, ∀ c ∈ f.connections, c.1.index < count
  shapes : ∀ f ∈ fs, f.kind.HasShape (f.connections.map (·.2))
  apart : ∀ f ∈ fs, f.connections.Pairwise fun a b => a.2 ∈ [.input, .output, .link] →
    b.2 ∈ [.input, .output, .link] → a.1 ≠ b.1
  motor : ∃! id : DeviceId, (fs[id.index]?).map (·.kind) = some .motor
  outputs : (fs.flatMap (·.connections)).Pairwise fun a b => a.2 = .output → b.2 = .output →
    a.1 ≠ b.1

/-- What is wrong with the devices when there is this error. -/
inductive Fails (count : Nat) (fs : List Fitting) : TopologyError → Prop
  | missingShaft {port : PortId} {p : Port} (hp : (Fitting.allPorts fs)[port.index]? = some p)
      (hs : count ≤ p.shaft.index) : Fails count fs (.missingShaft port p.shaft)
  | portShape {id : DeviceId} {f : Fitting} (hf : fs[id.index]? = some f)
      (hr : ¬ f.kind.HasShape (f.connections.map (·.2))) :
      Fails count fs (.portShape id f.kind (f.connections.map (·.2)))
  | repeatedShaft {id : DeviceId} {f : Fitting} {s : ShaftId} (hf : fs[id.index]? = some f)
      (hs : [s, s].Sublist f.resolving) : Fails count fs (.repeatedShaft id s)
  | conflictingDrivers {s : ShaftId} {first second : DeviceId}
      (hs : [⟨first, s, .output⟩, ⟨second, s, .output⟩].Sublist (Fitting.allPorts fs)) :
      Fails count fs (.conflictingDrivers s first second)
  | missingMotor (hm : ∀ f ∈ fs, f.kind ≠ .motor) : Fails count fs .missingMotor
  | multipleMotors {first second : DeviceId} (hlt : first.index < second.index)
      (hf : (fs[first.index]?).map (·.kind) = some .motor)
      (hs : (fs[second.index]?).map (·.kind) = some .motor) :
      Fails count fs (.multipleMotors first second)

theorem Fails.label_not_mem {count : Nat} {fs : List Fitting} {e : TopologyError}
    (h : Fails count fs e) :
    e.label ∉ ["InvalidDeviceRef", "PortDeviceMismatch", "InconsistentAdjacency"] := by
  cases h <;> simp [TopologyError.label]

/-- A shaft that cannot be resolved, because a device or two of them would resolve it twice. -/
inductive Clash : TopologyError → Prop
  | repeatedShaft (device : DeviceId) (shaft : ShaftId) : Clash (.repeatedShaft device shaft)
  | conflictingDrivers (shaft : ShaftId) (first second : DeviceId) :
      Clash (.conflictingDrivers shaft first second)

theorem resolves_iff {role : PortRole} :
    role.resolves = true ↔ role ∈ [PortRole.input, .output, .link] := by
  cases role <;> decide

theorem Fitting.nodup_resolving_iff (f : Fitting) :
    f.resolving.Nodup ↔ f.connections.Pairwise fun a b => a.2 ∈ [.input, .output, .link] →
      b.2 ∈ [.input, .output, .link] → a.1 ≠ b.1 := by
  rw [resolving, List.Nodup, List.pairwise_map, List.pairwise_filter]
  simp only [resolves_iff]

theorem nodup_outputs_iff (fs : List Fitting) :
    (fs.flatMap Fitting.outputs).Nodup ↔ (fs.flatMap (·.connections)).Pairwise fun a b =>
      a.2 = .output → b.2 = .output → a.1 ≠ b.1 := by
  have houtputs : fs.flatMap Fitting.outputs =
      ((fs.flatMap (·.connections)).filter (·.2 = .output)).map (·.1) := by
    rw [List.filter_flatMap, List.map_flatMap]
    rfl
  rw [houtputs, List.Nodup, List.pairwise_map, List.pairwise_filter]
  simp only [decide_eq_true_eq]

namespace Draft

theorem pairwise_motors (d : Draft) : d.motors.Pairwise (·.index < ·.index) :=
  pairwise_filter_zipIdx d.nodes.toList _

theorem length_motors_eq_one_iff (d : Draft) :
    d.motors.length = 1 ↔ ∃! id, id ∈ d.motors := by
  have hsorted := d.pairwise_motors
  rcases hm : d.motors with _ | ⟨first, _ | ⟨second, rest⟩⟩
  · simp
  · simp
  · rw [hm] at hsorted
    have hlt := List.rel_of_pairwise_cons hsorted List.mem_cons_self
    constructor
    · intro hlen
      cases hlen
    · rintro ⟨id, -, hid⟩
      have he : first = second := (hid first (by simp)).trans (hid second (by simp)).symm
      exact absurd (he ▸ hlt) (Nat.lt_irrefl _)

variable {d : Draft} {fs : List Fitting}

theorem Holds.wellWired_iff (h : d.Holds fs) :
    WellWired d.shafts.size fs ↔ Accepted d.shafts.size fs := by
  have hmotor : (fs.filter (·.kind = .motor)).length = 1 ↔
      ∃! id : DeviceId, (fs[id.index]?).map (·.kind) = some .motor := by
    rw [← length_motors h, length_motors_eq_one_iff]
    simp only [mem_motors_iff h]
  constructor
  · intro hw
    exact ⟨hw.shafts, fun f hf => DeviceKind.accepts_iff_hasShape.mpr (hw.shapes f hf),
      fun f hf => f.nodup_resolving_iff.mpr (hw.apart f hf), hmotor.mpr hw.motor,
      (nodup_outputs_iff fs).mpr hw.outputs⟩
  · intro ha
    exact ⟨ha.bounded, fun f hf => DeviceKind.accepts_iff_hasShape.mp (ha.shape f hf),
      fun f hf => f.nodup_resolving_iff.mp (ha.distinct f hf), hmotor.mp ha.motor,
      (nodup_outputs_iff fs).mp ha.drivers⟩

theorem exists_of_checkPorts {ports : List (Port × Nat)} {e : TopologyError}
    (he : checkPorts d ports = .error e) : ∃ p ∈ ports, checkPort d ⟨p.2⟩ p.1 = .error e := by
  induction ports with
  | nil => cases he
  | cons p rest ih =>
    rcases bind_eq_error_iff.mp he with he | ⟨_, -, he⟩
    · exact ⟨p, List.mem_cons_self, he⟩
    · obtain ⟨q, hq, he⟩ := ih he
      exact ⟨q, List.mem_cons_of_mem _ hq, he⟩

/-- The devices of ports are there, so that only shafts can be missing. -/
theorem Holds.missingShaft_of_checkPorts (h : d.Holds fs) {e : TopologyError}
    (he : checkPorts d d.ports.toList.zipIdx = .error e) : ∃ (port : PortId) (p : Port),
      e = .missingShaft port p.shaft ∧ (Fitting.allPorts fs)[port.index]? = some p ∧
        d.shafts.size ≤ p.shaft.index := by
  obtain ⟨⟨p, i⟩, hp, he⟩ := exists_of_checkPorts he
  have hi : (Fitting.allPorts fs)[i]? = some p := h.ports ▸ List.mem_zipIdx_iff_getElem?.mp hp
  obtain ⟨f, hf, -⟩ := mem_allPorts_iff.mp (List.mem_of_getElem? hi)
  have hdevice : p.device.index < d.nodes.size := by
    rw [h.length]
    exact (List.getElem?_eq_some_iff.mp hf).1
  rw [checkPort, if_neg (Nat.not_le.mpr hdevice)] at he
  split at he
  next hs => exact ⟨⟨i⟩, p, (Except.error.inj he).symm, hi, hs⟩
  next => cases he

/-- A shaft that does not exist is what is reported first. -/
theorem Holds.missingShaft_of_build (h : d.Holds fs) {f : Fitting} (hf : f ∈ fs)
    {c : ShaftId × PortRole} (hc : c ∈ f.connections) (hs : d.shafts.size ≤ c.1.index) :
    ∃ (port : PortId) (p : Port), d.build = .error (.missingShaft port p.shaft) ∧
      (Fitting.allPorts fs)[port.index]? = some p ∧ d.shafts.size ≤ p.shaft.index := by
  cases hports : checkPorts d d.ports.toList.zipIdx with
  | ok _ => exact absurd (h.checkPorts_iff.mp hports f hf c hc) (Nat.not_lt.mpr hs)
  | error e =>
    obtain ⟨port, p, rfl, hp, hlt⟩ := h.missingShaft_of_checkPorts hports
    refine ⟨port, p, ?_, hp, hlt⟩
    rw [build, hports]
    rfl

theorem sublist_of_firstRepeated {seen l : List ShaftId} {s : ShaftId}
    (h : firstRepeated seen l = some s) : s ∈ seen ∧ s ∈ l ∨ [s, s].Sublist l := by
  induction l generalizing seen with
  | nil => cases h
  | cons x rest ih =>
    by_cases hx : x ∈ seen
    · rw [firstRepeated, if_pos hx] at h
      obtain rfl := Option.some.inj h
      exact .inl ⟨hx, List.mem_cons_self⟩
    · rw [firstRepeated, if_neg hx] at h
      rcases ih h with ⟨hs, hrest⟩ | hsub
      · rcases List.mem_cons.mp hs with rfl | hs
        · exact .inr (List.Sublist.cons_cons _ (List.singleton_sublist.mpr hrest))
        · exact .inl ⟨hs, List.mem_cons_of_mem _ hrest⟩
      · exact .inr (hsub.cons x)

theorem exists_of_checkNodes {nodes : List (Node × Nat)} {e : TopologyError}
    (he : checkNodes d nodes = .error e) : ∃ n ∈ nodes, checkNode d ⟨n.2⟩ n.1 = .error e := by
  induction nodes with
  | nil => cases he
  | cons n rest ih =>
    rcases bind_eq_error_iff.mp he with he | ⟨_, -, he⟩
    · exact ⟨n, List.mem_cons_self, he⟩
    · obtain ⟨m, hm, he⟩ := ih he
      exact ⟨m, List.mem_cons_of_mem _ hm, he⟩

theorem Holds.fails_of_checkNodes (h : d.Holds fs) {e : TopologyError}
    (he : checkNodes d d.nodes.toList.zipIdx = .error e) : Fails d.shafts.size fs e := by
  obtain ⟨⟨node, i⟩, hn, he⟩ := exists_of_checkNodes he
  obtain ⟨f, hf, hkind, hports⟩ := h.exists_fitting hn
  have hid : fs[(⟨i⟩ : DeviceId).index]? = some f := hf
  have hroles : (f.ports i).map (·.role) = f.connections.map (·.2) := by
    rw [Fitting.ports, List.map_map]
    rfl
  have hresolving : ((f.ports i).filter (·.role.resolves)).map (·.shaft) = f.resolving := by
    rw [Fitting.ports, List.filter_map, List.map_map]
    rfl
  rw [(h.owns hn).checkNode_eq, hkind, hports, hroles, hresolving] at he
  split at he
  next hshape =>
    refine Except.error.inj he ▸ .portShape hid ?_
    rw [← DeviceKind.accepts_iff_hasShape]
    simpa using hshape
  next =>
    split at he
    next s hs =>
      refine Except.error.inj he ▸ .repeatedShaft hid ?_
      exact (sublist_of_firstRepeated hs).resolve_left fun hh => List.not_mem_nil hh.1
    next => cases he

theorem sublist_of_checkDrivers {seen : List (ShaftId × DeviceId)} {ports : List Port}
    {e : TopologyError} (he : checkDrivers seen ports = .error e) : ∃ s first second,
      e = .conflictingDrivers s first second ∧
        (seen.lookup s = some first ∧ ⟨second, s, .output⟩ ∈ ports ∨
          [⟨first, s, .output⟩, ⟨second, s, .output⟩].Sublist ports) := by
  induction ports generalizing seen with
  | nil => cases he
  | cons p rest ih =>
    obtain ⟨id, x, role⟩ := p
    by_cases hr : role = .output
    · subst hr
      rw [checkDrivers, if_pos rfl] at he
      cases hl : seen.lookup x with
      | some first =>
        rw [hl] at he
        exact ⟨x, first, id, (Except.error.inj he).symm, .inl ⟨hl, List.mem_cons_self⟩⟩
      | none =>
        rw [hl] at he
        obtain ⟨s, first, second, rfl, ⟨hs, hrest⟩ | hsub⟩ := ih he
        · rw [List.lookup_cons] at hs
          split at hs
          next hx =>
            obtain rfl := Option.some.inj hs
            obtain rfl : s = x := by simpa using hx
            exact ⟨s, _, second, rfl,
              .inr (List.Sublist.cons_cons _ (List.singleton_sublist.mpr hrest))⟩
          next => exact ⟨s, first, second, rfl, .inl ⟨hs, List.mem_cons_of_mem _ hrest⟩⟩
        · exact ⟨s, first, second, rfl, .inr (hsub.cons _)⟩
    · rw [checkDrivers, if_neg hr] at he
      obtain ⟨s, first, second, rfl, ⟨hs, hrest⟩ | hsub⟩ := ih he
      · exact ⟨s, first, second, rfl, .inl ⟨hs, List.mem_cons_of_mem _ hrest⟩⟩
      · exact ⟨s, first, second, rfl, .inr (hsub.cons _)⟩

/-- The check of the sorted ports never fails, so one of the others did, or motors are not one. -/
theorem eq_error_of_build {e : TopologyError} (he : d.build = .error e) :
    checkPorts d d.ports.toList.zipIdx = .error e ∨
      checkNodes d d.nodes.toList.zipIdx = .error e ∨
      (∃ first second rest, d.motors = first :: second :: rest ∧ e = .multipleMotors first second) ∨
      checkDrivers [] d.ports.toList = .error e ∨ d.motors = [] ∧ e = .missingMotor := by
  unfold build at he
  rcases bind_eq_error_iff.mp he with hports | ⟨⟨⟩, hports, he⟩
  · exact .inl hports
  have hsorted := checkSorted_sortPorts fun p hp =>
    ((checkPorts_zipIdx_eq_ok_iff d).mp hports p hp).1
  rcases bind_eq_error_iff.mp he with hnodes | ⟨⟨⟩, -, he⟩
  · exact .inr (.inl hnodes)
  rcases hm : d.motors with _ | ⟨first, _ | ⟨second, rest⟩⟩ <;> simp only [hm] at he
  · rcases bind_eq_error_iff.mp he with hdrivers | ⟨⟨⟩, -, he⟩
    · exact .inr (.inr (.inr (.inl hdrivers)))
    · exact .inr (.inr (.inr (.inr ⟨rfl, (Except.error.inj he).symm⟩)))
  · rcases bind_eq_error_iff.mp he with hdrivers | ⟨⟨⟩, -, he⟩
    · exact .inr (.inr (.inr (.inl hdrivers)))
    · rw [hsorted] at he
      cases he
  · exact .inr (.inr (.inl ⟨first, second, rest, rfl, (Except.error.inj he).symm⟩))

theorem Holds.fails_of_build (h : d.Holds fs) {e : TopologyError} (he : d.build = .error e) :
    Fails d.shafts.size fs e := by
  rcases eq_error_of_build he with he | he | ⟨first, second, rest, hm, rfl⟩ | he | ⟨hm, rfl⟩
  · obtain ⟨port, p, rfl, hp, hs⟩ := h.missingShaft_of_checkPorts he
    exact .missingShaft hp hs
  · exact h.fails_of_checkNodes he
  · have hmem : ∀ id, id ∈ first :: second :: rest →
        (fs[id.index]?).map (·.kind) = some .motor := by
      intro id hid
      exact (mem_motors_iff h).mp (hm ▸ hid)
    have hsorted := d.pairwise_motors
    rw [hm] at hsorted
    exact .multipleMotors (List.rel_of_pairwise_cons hsorted List.mem_cons_self)
      (hmem first (by simp)) (hmem second (by simp))
  · obtain ⟨s, first, second, rfl, ⟨hs, -⟩ | hsub⟩ := sublist_of_checkDrivers he
    · cases hs
    · exact .conflictingDrivers (h.ports ▸ hsub)
  · refine .missingMotor fun f hf hk => ?_
    obtain ⟨i, hi⟩ := List.mem_iff_getElem?.mp hf
    have hid : (⟨i⟩ : DeviceId) ∈ d.motors := (mem_motors_iff h).mpr (by simp [hi, hk])
    rw [hm] at hid
    exact List.not_mem_nil hid

/-- Ports on shafts of the draft, in the shape of their kinds and with one motor, leave nothing else
to refuse. -/
theorem Holds.clash_of_build (h : d.Holds fs)
    (hbounded : ∀ f ∈ fs, ∀ c ∈ f.connections, c.1.index < d.shafts.size)
    (hshape : ∀ f ∈ fs, f.kind.accepts (f.connections.map (·.2)) = true)
    (hmotor : (fs.filter (·.kind = .motor)).length = 1) {e : TopologyError}
    (he : d.build = .error e) : Clash e := by
  obtain ⟨motor, hmotors⟩ := List.length_eq_one_iff.mp ((length_motors h).trans hmotor)
  have hid : ∀ id : DeviceId, (fs[id.index]?).map (·.kind) = some .motor → id = motor := by
    intro id hk
    exact List.mem_singleton.mp (hmotors ▸ (mem_motors_iff h).mpr hk)
  cases h.fails_of_build he with
  | missingShaft hp hs =>
    obtain ⟨f, hf, hc⟩ := mem_allPorts_iff.mp (List.mem_of_getElem? hp)
    exact absurd (hbounded f (List.mem_of_getElem? hf) _ hc) (Nat.not_lt.mpr hs)
  | portShape hf hr =>
    exact absurd (DeviceKind.accepts_iff_hasShape.mp (hshape _ (List.mem_of_getElem? hf))) hr
  | repeatedShaft => exact .repeatedShaft _ _
  | conflictingDrivers => exact .conflictingDrivers _ _ _
  | missingMotor hm =>
    obtain ⟨f, hf⟩ := List.length_eq_one_iff.mp hmotor
    have hmem : f ∈ fs.filter (·.kind = .motor) := hf ▸ List.mem_singleton_self f
    rw [List.mem_filter, decide_eq_true_eq] at hmem
    exact absurd hmem.2 (hm f hmem.1)
  | multipleMotors hlt hfirst hsecond =>
    exact absurd (hid _ hfirst ▸ hid _ hsecond ▸ hlt) (Nat.lt_irrefl _)

/-- Whatever shafts and devices were added, they are built if and only if they are wired well. The
motor is then the one device of that kind. Otherwise the error says what is wrong with them, and
never that a draft refers to itself wrongly. -/
theorem verdict (items : List Item) :
    let d := items.foldl add empty
    let fs := items.filterMap Item.fitting?
    let count := (items.filterMap Item.shaft?).length
    ((∃ t, d.build = .ok t) ↔ WellWired count fs) ∧
      (∀ t, d.build = .ok t → ∀ id : DeviceId,
        (fs[id.index]?).map (·.kind) = some .motor ↔ id = t.motor) ∧
      ∀ e, d.build = .error e → Fails count fs e ∧
        e.label ∉ ["InvalidDeviceRef", "PortDeviceMismatch", "InconsistentAdjacency"] := by
  intro d fs count
  have h : d.Holds fs := holds_items items
  have hcount : d.shafts.size = count := by
    rw [← Array.length_toList, shafts_addAll]
    rfl
  rw [← hcount]
  refine ⟨h.build_isOk_iff.trans h.wellWired_iff.symm, fun t ht id => ?_, fun e he => ?_⟩
  · obtain ⟨-, -, -, motor, hm, rfl⟩ := (build_eq_ok_iff d t).mp ht
    rw [← mem_motors_iff h, hm, List.mem_singleton]
  · have hfails := h.fails_of_build he
    exact ⟨hfails, hfails.label_not_mem⟩

end Draft

end Topology

end DifferentialAnalyzer
