import DifferentialAnalyzer.Proofs.Description.Wired
import Mathlib.Data.List.Range

/-! Building gives the machine that a description stands for, up to the expressions in it. A shaft
that was added for an open slot is on the one port that it was added for. -/

namespace DifferentialAnalyzer

namespace Description

theorem Locates.not_le {spans : List ShaftSpan} {key : ShaftKey} {id : ShaftId}
    (h : Locates spans key id) : ¬spans.length ≤ id.index :=
  Nat.not_le.mpr h.lt

/-- Those of some shafts that a description with `spans` does not speak of. -/
def undescribed (spans : List ShaftSpan) (shafts : List ShaftId) : List ShaftId :=
  shafts.filter fun s => spans.length ≤ s.index

end Description

open Description (Locates undescribed)

/-- `count` shafts, numbered from `first` on. -/
def ShaftId.numbered (first count : Nat) : List ShaftId :=
  (List.range' first count).map Id.mk

theorem ShaftId.numbered_add (first count more : Nat) :
    numbered first (count + more) = numbered first count ++ numbered (first + count) more := by
  rw [numbered, ← List.range'_append_1, List.map_append]
  rfl

theorem ShaftId.count_numbered {first count : Nat} {s : ShaftId} (h : first ≤ s.index)
    (hlt : s.index < first + count) : (numbered first count).count s = 1 := by
  refine List.count_eq_one_of_mem ((List.nodup_range' ..).map fun _ _ he => Id.mk.inj he) ?_
  exact List.mem_map.mpr ⟨s.index, List.mem_range'_1.mpr ⟨h, hlt⟩, rfl⟩

namespace Part

variable {spans : List ShaftSpan} {scope : Bindings} {options : BuildOptions} {own : Nat}

theorem Slot.undescribed_eq {slot : Option ShaftKey} {id : ShaftId} (h : Slot spans own slot id)
    (hown : spans.length ≤ own) :
    undescribed spans [id] = ShaftId.numbered own (openCount slot) := by
  cases slot with
  | some key =>
    have hid : Locates spans key id := h
    simp [Description.undescribed, hid.not_le, ShaftId.numbered, openCount]
  | none =>
    obtain rfl : id = ⟨own⟩ := h
    simp [Description.undescribed, hown, ShaftId.numbered, openCount]

/-- A device is on the shafts of its own, on each of them once, and otherwise on described ones. -/
theorem Makes.undescribed_eq {p : Part} {d : Device} (h : p.Makes spans scope options own d)
    (hown : spans.length ≤ own) : undescribed spans (d.connections.map (·.1)) =
      ShaftId.numbered own p.openSlots := by
  cases h with
  | @differential a sum b x s y hx hs hy =>
    have hsplit : undescribed spans [x, s, y] =
        undescribed spans [x] ++ (undescribed spans [s] ++ undescribed spans [y]) := by
      rw [Description.undescribed, Description.undescribed, Description.undescribed,
        Description.undescribed, ← List.filter_append, ← List.filter_append]
      rfl
    rw [Part.openSlots, ShaftId.numbered_add, ShaftId.numbered_add, ← Nat.add_assoc,
      List.append_assoc, ← hx.undescribed_eq hown, ← hs.undescribed_eq (by omega),
      ← hy.undescribed_eq (by omega), ← hsplit]
    rfl
  | integrator hi hg ho =>
    simp [Device.ofIntegrator, Device.connections, Description.undescribed, hi.not_le, hg.not_le,
      ho.not_le, openSlots, ShaftId.numbered]
  | multiplier hi ho =>
    simp [Device.connections, Description.undescribed, hi.not_le, ho.not_le, openSlots,
      ShaftId.numbered]
  | functionTable hi ho =>
    simp [Device.ofCurve, Device.connections, Description.undescribed, hi.not_le, ho.not_le,
      openSlots, ShaftId.numbered]
  | motor ho =>
    simp [Device.connections, Description.undescribed, ho.not_le, openSlots, ShaftId.numbered]
  | twoCurves hx h1 h2 =>
    simp [OutputTable.ofShafts, OutputTable.start, Device.connections, Description.undescribed,
      hx.not_le, h1.not_le, h2.not_le, openSlots, ShaftId.numbered]
  | firstCurve hx h1 | secondCurve hx h1 =>
    simp [OutputTable.ofShafts, OutputTable.start, Device.connections, Description.undescribed,
      hx.not_le, h1.not_le, openSlots, ShaftId.numbered]
  | crossConnect h1 h2 | gearPair h1 h2 | gear h1 h2 =>
    simp [Device.connections, Description.undescribed, h1.not_le, h2.not_le, openSlots,
      ShaftId.numbered]
  | dial hi =>
    simp [Device.ofDial, Device.connections, Description.undescribed, hi.not_le, openSlots,
      ShaftId.numbered]

end Part

namespace Component

variable {spans : List ShaftSpan} {scope : Bindings} {options : BuildOptions}

theorem labels_eq {next : Nat} {cs : List Component} {made : List (String × Device)}
    (h : List.Forall₂ (Makes spans scope options) (devices next cs) made) :
    made.map (·.1) = (cs.filter (·.part.kind?.isSome)).map label := by
  induction cs generalizing next made with
  | nil =>
    obtain rfl := List.forall₂_nil_left_iff.mp h
    rfl
  | cons c cs ih =>
    cases hc : c.part.kind? with
    | none =>
      rw [devices_cons_label hc] at h
      simpa [hc] using ih h
    | some kind =>
      rw [devices_cons hc] at h
      obtain ⟨m, made, hm, hmade, rfl⟩ := List.forall₂_cons_left_iff.mp h
      simpa [hc, hm.1] using ih hmade

theorem kinds_eq {next : Nat} {cs : List Component} {made : List (String × Device)}
    (h : List.Forall₂ (Makes spans scope options) (devices next cs) made) :
    made.map (·.2.kind) = cs.filterMap (·.part.kind?) := by
  induction cs generalizing next made with
  | nil =>
    obtain rfl := List.forall₂_nil_left_iff.mp h
    rfl
  | cons c cs ih =>
    cases hc : c.part.kind? with
    | none =>
      rw [devices_cons_label hc] at h
      simpa [hc] using ih h
    | some kind =>
      rw [devices_cons hc] at h
      obtain ⟨m, made, hm, hmade, rfl⟩ := List.forall₂_cons_left_iff.mp h
      obtain rfl : kind = m.2.kind := Option.some.inj (hc.symm.trans hm.2.kind)
      simpa [hc] using ih hmade

/-- Devices of some components are on all shafts that were added for them. -/
theorem undescribed_eq {next : Nat} (hnext : spans.length ≤ next) {cs : List Component}
    {made : List (String × Device)}
    (h : List.Forall₂ (Makes spans scope options) (devices next cs) made) :
    undescribed spans (made.flatMap fun m => m.2.connections.map (·.1)) =
      ShaftId.numbered next (cs.flatMap ownShafts).length := by
  induction cs generalizing next made with
  | nil =>
    obtain rfl := List.forall₂_nil_left_iff.mp h
    rfl
  | cons c cs ih =>
    have hlen : ((c :: cs).flatMap ownShafts).length =
        c.part.openSlots + (cs.flatMap ownShafts).length := by
      simp [ownShafts]
    cases hc : c.part.kind? with
    | none =>
      rw [devices_cons_label hc] at h
      rw [hlen, Part.openSlots_of_kind? hc, Nat.zero_add]
      exact ih hnext h
    | some kind =>
      rw [devices_cons hc] at h
      obtain ⟨m, made, hm, hmade, rfl⟩ := List.forall₂_cons_left_iff.mp h
      rw [hlen, ShaftId.numbered_add, ← hm.2.undescribed_eq hnext,
        ← ih (Nat.le_add_right_of_le hnext) hmade]
      simp [undescribed, List.flatMap_cons]

end Component

theorem Settings.exists_of_resolve_eq_error {s : Settings} {e : DescriptionError}
    (h : s.resolve = .error e) : ∃ cause, e = .customVariables cause := by
  unfold resolve at h
  cases hs : s.customVariables with
  | none => simp [hs] at h
  | some source =>
    obtain ⟨cause, -, rfl⟩ := mapError_eq_error_iff.mp (by simpa only [hs] using h)
    exact ⟨cause, rfl⟩

/-- The shaft lies as the span does. -/
def ShaftSpan.Lies (span : ShaftSpan) (shaft : Topology.Shaft) : Prop :=
  shaft.name = s!"shaft {span.key}" ∧ span.orientation = .ok shaft.orientation

/-- The shafts and devices of a description are all there, and nothing else is. -/
structure Wiring.Complete (w : Wiring) (d : Description) (scope : Bindings)
    (options : BuildOptions) (described : List Topology.Shaft) (made : List (String × Device)) :
    Prop where
  spans : List.Forall₂ ShaftSpan.Lies d.shafts described
  makes : List.Forall₂ (Component.Makes d.shafts scope options)
    (Component.devices d.shafts.length d.components) made
  laid : w.Laid d.shafts (described ++ d.components.flatMap Component.ownShafts) made

namespace Description

/-- The machine of a description before its parameters and its wiring have been checked. -/
def assembly (d : Description) (options : BuildOptions) : Except DescriptionError Assembly := do
  d.validate.mapError .validation
  let chain ← d.settings.resolve
  let known ← d.orientations.mapError .validation
  let w ← Wiring.addShafts known .empty d.shafts
  let w ← Wiring.addComponents chain.toBindings options w d.components
  .ok w.assembly

theorem build_eq (d : Description) (options : BuildOptions) :
    d.build options = d.assembly options >>= fun a => a.build.mapError .machine := by
  simp only [build, assembly, bind_assoc, ok_bind]

variable {d : Description}

/-- The shafts of a valid description as they are added. -/
theorem exists_addShafts (h : d.validate = .ok ()) : ∃ known w described,
    d.orientations = .ok known ∧ Wiring.addShafts known .empty d.shafts = .ok w ∧
      w.Laid d.shafts described [] ∧ List.Forall₂ ShaftSpan.Lies d.shafts described := by
  obtain ⟨known, hknown, -, -, -⟩ := validate_eq_ok_iff.mp h
  obtain ⟨hof, hnodup⟩ := Orientations.ofShafts_eq_ok_iff.mp hknown
  obtain ⟨w, hw, hlaid⟩ := Wiring.laid_empty.addShafts rfl known hnodup
  refine ⟨known, w, _, hknown, hw, hlaid, ?_⟩
  rw [List.nil_append, List.forall₂_map_right_iff, List.forall₂_same]
  intro s hs
  obtain ⟨o, hlookup, ho⟩ := hof.lookup_eq hnodup hs
  exact ⟨rfl, by rw [hlookup, ho]; rfl⟩

/-- Only the expressions of a valid description can be wrong. -/
theorem assembly_cases (h : d.validate = .ok ()) (options : BuildOptions) :
    (∃ cause, d.settings.resolve = .error (.customVariables cause) ∧
        d.assembly options = .error (.customVariables cause)) ∨
      (∃ c ∈ d.components, ∃ cause, d.assembly options = .error (.expression c.label cause)) ∨
      ∃ (chain : LetChain) (w : Wiring) (described : List Topology.Shaft)
        (made : List (String × Device)), d.settings.resolve = .ok chain ∧
        d.assembly options = .ok w.assembly ∧
        w.Complete d chain.toBindings options described made := by
  obtain ⟨known, w, described, hknown, hw, hlaid, hspans⟩ := exists_addShafts h
  have heq : d.assembly options = d.settings.resolve >>= fun chain =>
      Wiring.addComponents chain.toBindings options w d.components >>= fun w =>
        .ok w.assembly := by
    simp only [assembly, h, hknown, hw, Except.mapError, ok_bind]
  cases hchain : d.settings.resolve with
  | error e =>
    obtain ⟨cause, rfl⟩ := Settings.exists_of_resolve_eq_error hchain
    exact .inl ⟨cause, rfl, by rw [heq, hchain]; rfl⟩
  | ok chain =>
    rw [hchain, ok_bind] at heq
    rcases hlaid.addComponents chain.toBindings options fun c hc => d.described h hc with
      ⟨c, hc, cause, herr⟩ | ⟨w', made, hok, hlaid', hmakes⟩
    · exact .inr (.inl ⟨c, hc, cause, by rw [heq, herr]; rfl⟩)
    · refine .inr (.inr ⟨chain, w', described, made, rfl, by rw [heq, hok]; rfl, hspans, ?_, ?_⟩)
      · rw [hspans.length_eq]
        exact hmakes
      · exact hlaid'

end Description

/-- The machine is the one that is described. -/
structure Simulator.Realizes (s : Simulator) (d : Description) (scope : Bindings)
    (options : BuildOptions) : Prop where
  shafts : ∃ described, List.Forall₂ ShaftSpan.Lies d.shafts described ∧
    s.topology.shafts.toList = described ++ d.components.flatMap Component.ownShafts
  /-- No two shafts can be meant by one id. -/
  keys : (d.shafts.map (·.key)).Nodup
  devices : List.Forall₂ (fun p device => p.1.part.Makes d.shafts scope options p.2 device)
    (Component.devices d.shafts.length d.components) s.devices.toList
  kinds : s.devices.toList.map Device.kind = d.components.filterMap (·.part.kind?)
  names : s.topology.nodes.toList.map (·.name) =
    (d.components.filter (·.part.kind?.isSome)).map Component.label
  ports : s.topology.ports.toList = Topology.Fitting.allPorts (s.devices.toList.map (·.fitting))
  nodes : s.topology.nodes.toList.map (·.kind) = s.devices.toList.map Device.kind
  connections : ∀ i device, s.devices[i]? = some device →
    s.topology.deviceShafts ⟨i⟩ = device.connections.map (·.1)
  /-- A shaft that was added for an open slot is on one port. -/
  floating : ∀ id : ShaftId, d.shafts.length ≤ id.index → id.index < s.topology.shafts.size →
    ∃ p, s.topology.portRecords id = [p]

section Complete

variable {w : Wiring} {d : Description} {scope : Bindings} {options : BuildOptions}
  {described : List Topology.Shaft} {made : List (String × Device)}

theorem Wiring.Complete.holds (h : w.Complete d scope options described made) :
    w.assembly.draft.Holds (w.assembly.devices.toList.map (·.fitting)) := by
  rw [h.laid.devices, List.map_map]
  exact h.laid.holds

theorem Wiring.Complete.count_floating (h : w.Complete d scope options described made)
    {id : ShaftId} (hid : d.shafts.length ≤ id.index)
    (hlt : id.index < w.assembly.draft.shafts.size) :
    ((w.assembly.devices.toList.map (·.fitting)).flatMap fun f => f.connections.map (·.1)).count
      id = 1 := by
  have hown := Component.undescribed_eq (Nat.le_refl _) h.makes
  rw [h.laid.size, List.length_append, ← h.spans.length_eq] at hlt
  rw [h.laid.devices, List.map_map, List.flatMap_map, ← ShaftId.count_numbered hid hlt, ← hown,
    undescribed, List.count_filter (by simpa using hid)]
  rfl

theorem Wiring.Complete.realizes (h : w.Complete d scope options described made)
    (hkeys : (d.shafts.map (·.key)).Nodup) {s : Simulator} (hs : w.assembly.build = .ok s) :
    s.Realizes d scope options := by
  obtain ⟨-, topology, ht, rfl⟩ := (Assembly.build_eq_ok_iff _ s).mp hs
  obtain ⟨hshafts, hnodes, hports⟩ := Topology.Draft.fields_of_build ht
  refine ⟨⟨described, h.spans, ?_⟩, hkeys, ?_, ?_, ?_, ?_, ?_, fun i device hi => ?_,
    fun id hid hlt => ?_⟩ <;> simp only [Simulator.ofTopology, hshafts, hnodes, hports] at *
  · exact h.laid.shafts
  · rw [h.laid.devices, List.forall₂_map_right_iff]
    exact h.makes.imp fun _ _ hm => hm.2
  · rw [h.laid.devices, List.map_map]
    exact Component.kinds_eq h.makes
  · exact h.laid.names.trans (Component.labels_eq h.makes)
  · exact h.holds.ports
  · rw [h.holds.kinds, List.map_map]
    rfl
  · refine h.holds.deviceShafts (f := device.fitting) ht ?_
    rw [List.getElem?_map, Array.getElem?_toList, hi]
    rfl
  · rw [← List.length_eq_one_iff, h.holds.length_portRecords ht]
    exact h.count_floating hid hlt

end Complete

/-- What is built from a description is the checked assembly of its shafts and components. -/
theorem Description.complete_of_build {d : Description} {options : BuildOptions} {s : Simulator}
    (h : d.build options = .ok s) :
    ∃ (chain : LetChain) (w : Wiring) (described : List Topology.Shaft)
      (made : List (String × Device)), d.settings.resolve = .ok chain ∧
      d.validate = .ok () ∧ w.Complete d chain.toBindings options described made ∧
      w.assembly.build = .ok s := by
  rw [build_eq] at h
  obtain ⟨a, ha, h⟩ := bind_eq_ok_iff.mp h
  obtain ⟨⟨⟩, hvalid, -⟩ := bind_eq_ok_iff.mp ha
  have hvalid := mapError_eq_ok_iff.mp hvalid
  rcases assembly_cases hvalid options with ⟨cause, -, herr⟩ |
    ⟨c, -, cause, herr⟩ | ⟨chain, w, described, made, hchain, hw, hcomplete⟩
  · simp [ha] at herr
  · simp [ha] at herr
  · obtain rfl : a = w.assembly := Except.ok.inj (ha.symm.trans hw)
    exact ⟨chain, w, described, made, hchain, hvalid, hcomplete, mapError_eq_ok_iff.mp h⟩

/-- What is built from a description is the machine that it stands for. -/
theorem Description.realizes_of_build {d : Description} {options : BuildOptions} {s : Simulator}
    (h : d.build options = .ok s) :
    ∃ chain, d.settings.resolve = .ok chain ∧ s.Realizes d chain.toBindings options := by
  obtain ⟨chain, w, described, made, hchain, hvalid, hcomplete, hs⟩ := complete_of_build h
  obtain ⟨known, hknown, -⟩ := validate_eq_ok_iff.mp hvalid
  have hkeys := (Orientations.ofShafts_eq_ok_iff.mp hknown).2
  exact ⟨chain, hchain, hcomplete.realizes hkeys hs⟩

/-- A machine with an open slot, a factor that is a formula, a table with its second curve only, and
a note. -/
def Description.sketched : Description :=
  ⟨[⟨7, ⟨0, 0⟩, ⟨3, 0⟩⟩, ⟨5, ⟨1, 0⟩, ⟨1, 4⟩⟩, ⟨9, ⟨2, 2⟩, ⟨2, 2⟩⟩],
    [⟨some 1, none, .differential (some 7) none (some 5)⟩,
      ⟨none, none, .label (some "adds")⟩,
      ⟨some 2, none, .motor 7 false none⟩,
      ⟨some 3, none, .multiplier 7 9 (.formula "2 * rate")⟩,
      ⟨some 4, none, .outputTable 7 none (some 5) 0.5 0.25⟩],
    ⟨some "rate = 3"⟩⟩

theorem Description.realizes_of_build_sketched : ∃ (s : Simulator) (chain : LetChain),
    sketched.build .standard = .ok s ∧
    s.topology.shafts.toList = [⟨"shaft 7", .horizontal⟩, ⟨"shaft 5", .vertical⟩,
      ⟨"shaft 9", .point⟩, ⟨"differential #1 (floating)", .point⟩] ∧
    s.topology.deviceShafts ⟨0⟩ = [⟨0⟩, ⟨3⟩, ⟨1⟩] ∧
    sketched.settings.resolve = .ok chain ∧ s.Realizes sketched chain.toBindings .standard := by
  have hb : (sketched.build .standard).toOption.map (fun s =>
      (s.topology.shafts.toList, s.topology.deviceShafts ⟨0⟩)) =
        some ([⟨"shaft 7", .horizontal⟩, ⟨"shaft 5", .vertical⟩, ⟨"shaft 9", .point⟩,
          ⟨"differential #1 (floating)", .point⟩], [⟨0⟩, ⟨3⟩, ⟨1⟩]) := by
    decide +kernel
  obtain ⟨s, hs, he⟩ := Option.map_eq_some_iff.mp hb
  obtain ⟨hshafts, hslots⟩ := Prod.mk.inj he
  have hbuild : sketched.build .standard = .ok s := toOption_eq_some_iff.mp hs
  obtain ⟨chain, hchain, hrealizes⟩ := realizes_of_build hbuild
  exact ⟨s, chain, hbuild, hshafts, hslots, hchain, hrealizes⟩

end DifferentialAnalyzer
