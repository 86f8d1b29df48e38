import DifferentialAnalyzer.Proofs.Description.Built
import DifferentialAnalyzer.Proofs.Topology.Verdict

/-! Why a description makes no machine. What its own checks let pass, the checks of the wiring find
wrong only where a shaft would be resolved twice: all ids are known, all ports have their shape, and
there is one motor. -/

namespace DifferentialAnalyzer

theorem Device.accepts_connections (d : Device) :
    d.kind.accepts (d.connections.map (·.2)) = true := by
  cases d with
  | outputTable t =>
    obtain ⟨_, _, y2, _⟩ := t
    cases y2 <;> rfl
  | _ => rfl

/-- What can be wrong with the parameters of a device. -/
inductive Device.Unusable (d : Device) : MachineError → Prop
  | nonFinite (what : String) {x : Float} (hx : x.isFinite = false) :
      Unusable d (.fault (.nonFinite what x))
  | noRatio {a b : ShaftId} {factor : Float} (hd : d = .gearPair a b factor)
      (hfactor : (factor == 0.0) = true) :
      Unusable d (.invalidArgument "gear pair factor must be nonzero")

namespace Device

theorem unusable_of_requireFinite (d : Device) {what : String} {x : Float} {e : MachineError}
    (h : requireFinite what x = .error e) : d.Unusable e := by
  cases hx : x.isFinite with
  | true => simp [requireFinite, DifferentialAnalyzer.requireFinite, hx] at h
  | false =>
    simp only [requireFinite, DifferentialAnalyzer.requireFinite, hx] at h
    exact Except.error.inj h ▸ .nonFinite what hx

theorem unusable_of_checkParameters {d : Device} {e : MachineError}
    (h : d.checkParameters = .error e) : d.Unusable e := by
  cases d with
  | gearPair a b factor =>
    rcases bind_eq_error_iff.mp h with h | ⟨_, -, h⟩
    · exact unusable_of_requireFinite _ h
    · split at h
      next hfactor => exact Except.error.inj h ▸ .noRatio rfl hfactor
      next => cases h
  | motor | multiplier | integrator | functionTable => exact unusable_of_requireFinite _ h
  | gear | crossConnect | differential | outputTable | dial => cases h

end Device

theorem Assembly.unusable_of_checkParameters {ds : List Device} {e : MachineError}
    (h : checkParameters ds = .error e) : ∃ d ∈ ds, d.Unusable e := by
  induction ds with
  | nil => cases h
  | cons d ds ih =>
    rcases bind_eq_error_iff.mp h with h | ⟨_, -, h⟩
    · exact ⟨d, List.mem_cons_self, Device.unusable_of_checkParameters h⟩
    · obtain ⟨d', hd', he⟩ := ih h
      exact ⟨d', List.mem_cons_of_mem _ hd', he⟩

theorem Part.isMotor_iff (p : Part) : p.isMotor = true ↔ p.kind? = some .motor := by
  cases p <;> simp [isMotor, kind?]

/-- What can be wrong with the machine of a description. -/
inductive Description.Flawed (d : Description) : DescriptionError → Prop
  | validation {cause : ValidationError} (h : d.validate = .error cause) :
      Flawed d (.validation cause)
  | customVariables {cause : ExprError} (h : d.settings.resolve = .error (.customVariables cause)) :
      Flawed d (.customVariables cause)
  | expression {c : Component} (hc : c ∈ d.components) (cause : ExprError) :
      Flawed d (.expression c.label cause)
  | nonFinite (what : String) {x : Float} (hx : x.isFinite = false) :
      Flawed d (.machine (.fault (.nonFinite what x)))
  | noRatio {c : Component} (hc : c ∈ d.components) {shaft1 shaft2 : ShaftKey}
      {inputRatio outputRatio : Float}
      (hpart : c.part = .gearPair shaft1 shaft2 inputRatio outputRatio)
      (hratio : (outputRatio / inputRatio == 0.0) = true) :
      Flawed d (.machine (.invalidArgument "gear pair factor must be nonzero"))
  | clash {cause : TopologyError} (h : Topology.Clash cause) :
      Flawed d (.machine (.topology cause))

section Complete

variable {w : Wiring} {d : Description} {scope : Bindings} {options : BuildOptions}
  {described : List Topology.Shaft} {made : List (String × Device)}

/-- Every device of the machine is made by a component. -/
theorem Wiring.Complete.exists_makes (h : w.Complete d scope options described made)
    {device : Device} (hdevice : device ∈ w.assembly.devices.toList) :
    ∃ c ∈ d.components, ∃ own, c.part.Makes d.shafts scope options own device := by
  rw [h.laid.devices] at hdevice
  obtain ⟨m, hm, rfl⟩ := List.mem_map.mp hdevice
  obtain ⟨i, hi⟩ := List.mem_iff_getElem?.mp hm
  obtain ⟨p, hp, hmakes⟩ : ∃ p, (Component.devices d.shafts.length d.components)[i]? = some p ∧
      Component.Makes d.shafts scope options p m := by
    obtain ⟨hlen, hget⟩ := List.getElem?_eq_some_iff.mp hi
    have hlen' := h.makes.length_eq ▸ hlen
    exact ⟨_, List.getElem?_eq_getElem hlen', hget ▸ h.makes.get hlen' hlen⟩
  have hplaced := List.mem_of_mem_filter (List.mem_of_getElem? hp)
  exact ⟨p.1, Component.mem_of_mem_placed hplaced, p.2, hmakes.2⟩

theorem Wiring.Complete.bounded (h : w.Complete d scope options described made) :
    ∀ f ∈ made.map (·.2.fitting), ∀ c ∈ f.connections,
      c.1.index < w.assembly.draft.shafts.size := by
  intro f hf c hc
  rw [h.laid.size, List.length_append, ← h.spans.length_eq]
  by_cases hlt : c.1.index < d.shafts.length
  · omega
  · obtain ⟨m, hm, rfl⟩ := List.mem_map.mp hf
    have hmem : c.1 ∈ Description.undescribed d.shafts
        (made.flatMap fun m => m.2.connections.map (·.1)) := by
      refine List.mem_filter.mpr ⟨?_, by simpa using hlt⟩
      exact List.mem_flatMap.mpr ⟨m, hm, List.mem_map.mpr ⟨c, hc, rfl⟩⟩
    rw [Component.undescribed_eq (Nat.le_refl _) h.makes] at hmem
    obtain ⟨i, hi, he⟩ := List.mem_map.mp hmem
    rw [← he]
    exact (List.mem_range'_1.mp hi).2

theorem Wiring.Complete.oneMotor (h : w.Complete d scope options described made)
    (hone : d.motorCount = 1) :
    ((made.map (·.2.fitting)).filter (·.kind = .motor)).length = 1 := by
  have hkinds := congrArg (fun l => (l.filter (· = DeviceKind.motor)).length)
    (Component.kinds_eq h.makes)
  simp only [List.filter_map, List.length_map] at hkinds ⊢
  refine hkinds.trans (Eq.trans ?_ hone)
  rw [Description.motorCount, ← List.countP_eq_length_filter, List.countP_filterMap]
  refine List.countP_congr fun c _ => ?_
  rw [Part.isMotor_iff]
  cases c.part.kind? <;> simp

theorem Wiring.Complete.flawed_of_build (h : w.Complete d scope options described made)
    (hone : d.motorCount = 1) {e : MachineError} (he : w.assembly.build = .error e) :
    d.Flawed (.machine e) := by
  rcases bind_eq_error_iff.mp he with he | ⟨_, -, he⟩
  · obtain ⟨device, hdevice, hun⟩ := Assembly.unusable_of_checkParameters he
    cases hun with
    | nonFinite what hx => exact .nonFinite what hx
    | noRatio hd hfactor =>
      obtain ⟨c, hc, own, hmakes⟩ := h.exists_makes hdevice
      rw [hd] at hmakes
      generalize hpart : c.part = p at hmakes
      cases hmakes with
      | gearPair ha hb inputRatio outputRatio => exact .noRatio hc hpart hfactor
  · split at he
    next cause hbuild =>
      obtain rfl := Except.error.inj he
      refine .clash
        (h.laid.holds.clash_of_build h.bounded (fun f hf => ?_) (h.oneMotor hone) hbuild)
      obtain ⟨m, -, rfl⟩ := List.mem_map.mp hf
      exact m.2.accepts_connections
    next => cases he

end Complete

namespace Description

theorem flawed_of_build {d : Description} {options : BuildOptions} {e : DescriptionError}
    (he : d.build options = .error e) : d.Flawed e := by
  cases hvalid : d.validate with
  | error cause =>
    simp only [build, hvalid, Except.mapError, error_bind] at he
    exact Except.error.inj he ▸ .validation hvalid
  | ok _ =>
    obtain ⟨known, -, -, -, hone⟩ := validate_eq_ok_iff.mp hvalid
    rw [build_eq] at he
    rcases assembly_cases hvalid options with ⟨cause, hchain, herr⟩ | ⟨c, hc, cause, herr⟩ |
      ⟨chain, w, described, made, -, hw, hcomplete⟩
    · rw [herr, error_bind] at he
      exact Except.error.inj he ▸ .customVariables hchain
    · rw [herr, error_bind] at he
      exact Except.error.inj he ▸ .expression hc cause
    · rw [hw, ok_bind] at he
      obtain ⟨cause, hcause, rfl⟩ := mapError_eq_error_iff.mp he
      exact hcomplete.flawed_of_build hone hcause

/-- A description makes no machine because it is not valid, because of an expression, or because of
a number or a clash on a shaft that only its machine shows. -/
theorem flaws (d : Description) (options : BuildOptions) :
    (∀ cause, d.build options = .error (.validation cause) ↔ d.validate = .error cause) ∧
      ∀ e, d.build options = .error e → d.Flawed e := by
  refine ⟨fun cause => ⟨fun he => ?_, fun he => ?_⟩, fun e => flawed_of_build⟩
  · cases flawed_of_build he with
    | validation h => exact h
  · simp only [build, he, Except.mapError, error_bind]

/-- A valid description in which the motor and a multiplier drive one shaft. -/
def doubled : Description :=
  ⟨[⟨1, ⟨0, 0⟩, ⟨3, 0⟩⟩, ⟨2, ⟨0, 1⟩, ⟨3, 1⟩⟩],
    [⟨none, none, .motor 1 false none⟩, ⟨none, none, .multiplier 2 1 (.number 2.0)⟩], ⟨none⟩⟩

theorem flaws_doubled : ∃ e : DescriptionError, doubled.build .standard = .error e ∧
    e.label = "Simulation.Topology.ConflictingDrivers" ∧ doubled.Flawed e ∧
    ∀ cause, doubled.validate ≠ .error cause := by
  have hb : (match doubled.build .standard with
      | .error e => some e.label
      | .ok _ => none) = some "Simulation.Topology.ConflictingDrivers" := by
    decide +kernel
  cases he : doubled.build .standard with
  | ok s => simp [he] at hb
  | error e =>
    rw [he] at hb
    have hlabel : e.label = "Simulation.Topology.ConflictingDrivers" := Option.some.inj hb
    refine ⟨e, rfl, hlabel, (flaws doubled .standard).2 e he, fun cause hcause => ?_⟩
    have hinvalid := ((flaws doubled .standard).1 cause).mpr hcause
    obtain rfl : e = .validation cause := Except.error.inj (he.symm.trans hinvalid)
    cases cause <;> simp [DescriptionError.label, ValidationError.label] at hlabel

end Description

end DifferentialAnalyzer
