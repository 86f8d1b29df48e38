import DifferentialAnalyzer.Description.Build
import DifferentialAnalyzer.Proofs.Expr.Calls
import DifferentialAnalyzer.Proofs.Machine.RunError

/-! Machines made from descriptions. Their devices are new, and the names of a formula have been
checked when its table was made, so that no tick can miss one. -/

namespace DifferentialAnalyzer

/-- What a description makes: a new device, the curve of which fails for ranges only. -/
structure Device.Made (d : Device) : Prop where
  new : d.New
  failsWith : d.FailsWith ExprError.IsRange

/-- The curve of a formula that was accepted needs nothing but the place on the table. -/
theorem Curve.isRange_of_eval {source owner : String} {scope : Bindings} {curve : Curve}
    (h : Curve.ofFormula source owner scope = .ok curve) {x : Float} {err : ExprError}
    (he : curve.eval x = .error err) : err.IsRange := by
  obtain ⟨c, hc, h⟩ := bind_eq_ok_iff.mp h
  split at h
  next hfree =>
    obtain rfl := Except.ok.inj h
    have hnames : ∀ name ∈ c.free, Bindings.get? [(Curve.argument, x)] name ≠ none := by
      intro name hname
      have hkept := List.filter_eq_nil_iff.mp hfree name hname
      obtain rfl : name = Curve.argument := by simpa using hkept
      simp [Bindings.get?]
    unfold ofCompiled at he
    split at he
    · cases he
    · exact c.isRange_of_call (mapError_eq_ok_iff.mp hc) hnames he
  · cases h

namespace Wiring

/-- The machine under construction consists of what the description makes. -/
def Made (w : Wiring) : Prop :=
  ∃ pieces, w.assembly = .ofPieces pieces ∧ ∀ d ∈ Piece.devices pieces, d.Made

theorem made_empty : empty.Made :=
  ⟨[], rfl, by simp [Piece.devices]⟩

section Made

variable {w w' : Wiring}

theorem Made.withShaft (h : w.Made) (name : String) (o : Orientation) (keys : ShaftKeys) :
    (⟨(w.assembly.addShaft name o).1, keys⟩ : Wiring).Made := by
  obtain ⟨pieces, hw, hd⟩ := h
  refine ⟨pieces ++ [.shaft name o], ?_, fun d hm => hd d ?_⟩
  · simp [Assembly.ofPieces, Assembly.add, hw]
  · simpa [Piece.devices, Piece.device?] using hm

theorem Made.addDevice (h : w.Made) (name : String) {d : Device} (hd : d.Made) :
    (w.addDevice name d).Made := by
  obtain ⟨pieces, hw, hall⟩ := h
  refine ⟨pieces ++ [.device name d (.of_reset_eq hd.new.reset_eq)], ?_, fun d' hm => ?_⟩
  · simp [Assembly.ofPieces, Assembly.add, Wiring.addDevice, hw]
  · rw [Piece.devices, List.filterMap_append, List.mem_append] at hm
    rcases hm with hm | hm
    · exact hall d' hm
    · obtain rfl : d' = d := by simpa [Piece.device?] using hm
      exact hd

theorem Made.addShaft (h : w.Made) {span : ShaftSpan} {o : Orientation}
    (hw : w.addShaft span o = .ok w') : w'.Made := by
  obtain ⟨keys, -, he⟩ := bind_eq_ok_iff.mp hw
  obtain rfl := Except.ok.inj he
  exact h.withShaft _ o keys

theorem Made.addShafts (h : w.Made) {known : Orientations} {spans : List ShaftSpan}
    (hw : w.addShafts known spans = .ok w') : w'.Made := by
  induction spans generalizing w with
  | nil => exact Except.ok.inj hw ▸ h
  | cons span spans ih =>
    obtain ⟨next, hnext, hw⟩ := bind_eq_ok_iff.mp hw
    exact ih (h.addShaft hnext) hw

theorem Made.slot (h : w.Made) {owner : String} {key : Option ShaftKey} {id : ShaftId}
    (hw : w.slot owner key = .ok (w', id)) : w'.Made := by
  cases key with
  | some key =>
    obtain ⟨id', -, he⟩ := bind_eq_ok_iff.mp hw
    obtain ⟨rfl, -⟩ := Prod.mk.inj (Except.ok.inj he)
    exact h
  | none =>
    obtain ⟨rfl, -⟩ := Prod.mk.inj (Except.ok.inj hw)
    exact h.withShaft _ .point _

theorem Made.addPart (h : w.Made) {label : String} {scope : Bindings} {options : BuildOptions}
    {part : Part} (hw : w.addPart label scope options part = .ok w') : w'.Made := by
  cases part with
  | integrator input integrand output reversed initial =>
    obtain ⟨_, -, hw⟩ := bind_eq_ok_iff.mp hw
    obtain ⟨_, -, hw⟩ := bind_eq_ok_iff.mp hw
    obtain ⟨_, -, hw⟩ := bind_eq_ok_iff.mp hw
    exact Except.ok.inj hw ▸ h.addDevice label ⟨⟨0.0, rfl⟩, trivial⟩
  | differential a sum b =>
    obtain ⟨⟨w₁, _⟩, h₁, hw⟩ := bind_eq_ok_iff.mp hw
    obtain ⟨⟨w₂, _⟩, h₂, hw⟩ := bind_eq_ok_iff.mp hw
    obtain ⟨⟨w₃, _⟩, h₃, hw⟩ := bind_eq_ok_iff.mp hw
    have hslots := ((h.slot h₁).slot h₂).slot h₃
    exact Except.ok.inj hw ▸ hslots.addDevice label ⟨⟨0.0, rfl⟩, trivial⟩
  | multiplier input output factor =>
    obtain ⟨_, -, hw⟩ := bind_eq_ok_iff.mp hw
    obtain ⟨_, -, hw⟩ := bind_eq_ok_iff.mp hw
    obtain ⟨_, -, hw⟩ := bind_eq_ok_iff.mp hw
    exact Except.ok.inj hw ▸ h.addDevice label ⟨⟨0.0, rfl⟩, trivial⟩
  | functionTable input output formula =>
    obtain ⟨_, -, hw⟩ := bind_eq_ok_iff.mp hw
    obtain ⟨_, -, hw⟩ := bind_eq_ok_iff.mp hw
    obtain ⟨curve, hcurve, hw⟩ := bind_eq_ok_iff.mp hw
    have hfails : ∀ x err, curve.eval x = .error err → err.IsRange :=
      fun x err => Curve.isRange_of_eval hcurve
    exact Except.ok.inj hw ▸ h.addDevice label ⟨⟨0.0, rfl⟩, hfails⟩
  | motor output reversed rotation =>
    obtain ⟨_, -, hw⟩ := bind_eq_ok_iff.mp hw
    exact Except.ok.inj hw ▸ h.addDevice label ⟨⟨_, rfl⟩, trivial⟩
  | outputTable input output1 output2 initial1 initial2 =>
    obtain ⟨_, -, hw⟩ := bind_eq_ok_iff.mp hw
    split at hw
    · obtain ⟨_, -, hw⟩ := bind_eq_ok_iff.mp hw
      obtain ⟨_, -, hw⟩ := bind_eq_ok_iff.mp hw
      exact Except.ok.inj hw ▸ h.addDevice label ⟨⟨0.0, rfl⟩, trivial⟩
    · obtain ⟨_, -, hw⟩ := bind_eq_ok_iff.mp hw
      exact Except.ok.inj hw ▸ h.addDevice label ⟨⟨0.0, rfl⟩, trivial⟩
    · obtain ⟨_, -, hw⟩ := bind_eq_ok_iff.mp hw
      exact Except.ok.inj hw ▸ h.addDevice label ⟨⟨0.0, rfl⟩, trivial⟩
    · cases hw
  | crossConnect horizontal vertical reversed =>
    obtain ⟨_, -, hw⟩ := bind_eq_ok_iff.mp hw
    obtain ⟨_, -, hw⟩ := bind_eq_ok_iff.mp hw
    exact Except.ok.inj hw ▸ h.addDevice label ⟨⟨0.0, rfl⟩, trivial⟩
  | gearPair shaft1 shaft2 inputRatio outputRatio =>
    obtain ⟨_, -, hw⟩ := bind_eq_ok_iff.mp hw
    obtain ⟨_, -, hw⟩ := bind_eq_ok_iff.mp hw
    exact Except.ok.inj hw ▸ h.addDevice label ⟨⟨0.0, rfl⟩, trivial⟩
  | gear horizontal vertical =>
    obtain ⟨_, -, hw⟩ := bind_eq_ok_iff.mp hw
    obtain ⟨_, -, hw⟩ := bind_eq_ok_iff.mp hw
    exact Except.ok.inj hw ▸ h.addDevice label ⟨⟨0.0, rfl⟩, trivial⟩
  | dial input =>
    obtain ⟨_, -, hw⟩ := bind_eq_ok_iff.mp hw
    exact Except.ok.inj hw ▸ h.addDevice label ⟨⟨0.0, rfl⟩, trivial⟩
  | label text => exact Except.ok.inj hw ▸ h

theorem Made.addComponents (h : w.Made) {scope : Bindings} {options : BuildOptions}
    {components : List Component} (hw : w.addComponents scope options components = .ok w') :
    w'.Made := by
  induction components generalizing w with
  | nil => exact Except.ok.inj hw ▸ h
  | cons c rest ih =>
    obtain ⟨next, hnext, hw⟩ := bind_eq_ok_iff.mp hw
    exact ih (h.addPart hnext) hw

end Made

end Wiring

theorem Description.made_of_build {d : Description} {options : BuildOptions} {s : Simulator}
    (h : d.build options = .ok s) : s.Built ∧ ∀ device ∈ s.devices, device.Made := by
  obtain ⟨_, -, h⟩ := bind_eq_ok_iff.mp h
  obtain ⟨chain, -, h⟩ := bind_eq_ok_iff.mp h
  obtain ⟨known, -, h⟩ := bind_eq_ok_iff.mp h
  obtain ⟨w, hshafts, h⟩ := bind_eq_ok_iff.mp h
  obtain ⟨w', hcomponents, h⟩ := bind_eq_ok_iff.mp h
  obtain ⟨pieces, hw, hmade⟩ := (Wiring.made_empty.addShafts hshafts).addComponents hcomponents
  have hb : (Assembly.ofPieces pieces).build = .ok s := hw ▸ mapError_eq_ok_iff.mp h
  refine ⟨⟨pieces, hb⟩, fun device hdevice => hmade device ?_⟩
  obtain ⟨-, topology, -, rfl⟩ := (Assembly.build_eq_ok_iff _ s).mp hb
  simpa [Simulator.ofTopology, Assembly.devices_ofPieces] using hdevice

/-- Whatever is done with a machine that was made from a description, its ticks fail only where a
shaft is resolved twice or a range is none, and no curve misses a name at any place. -/
theorem Description.names_checked {d : Description} {options : BuildOptions} {s : Simulator}
    (h : d.build options = .ok s) (ops : List Operation) :
    (∀ op e, ((s.after ops).perform op).2 = .failed e → RunError ExprError.IsRange e) ∧
    ∀ t, Device.functionTable t ∈ (s.after ops).devices → ∀ x err,
      t.curve.eval x = .error err → err.IsRange := by
  obtain ⟨hb, hmade⟩ := made_of_build h
  have hsame := s.kept_sameMake.after hb.atRest.sameMake ops
  have hfails := hsame.failsWith fun device hdevice => (hmade device hdevice).failsWith
  refine ⟨fun op e he => hsame.continues.rest.runError_of_perform hfails he, fun t ht => ?_⟩
  exact hfails _ ht

/-- A table whose range is none past a limit that is a variable. -/
def Description.limited : Description :=
  ⟨[⟨1, ⟨0, 0⟩, ⟨3, 0⟩⟩, ⟨2, ⟨0, 1⟩, ⟨3, 1⟩⟩],
    [⟨some 1, none, .motor 1 false (some 0.5)⟩,
      ⟨some 2, none,
        .functionTable 1 2 "sum(i = 0, (x > limit) / 2, 1)" none none none none⟩],
    ⟨some "limit = 1.2"⟩⟩

theorem Description.names_checked_limited : ∃ (s : Simulator) (e : MachineError),
    limited.build .standard = .ok s ∧ ((s.after [.step, .step]).perform .step).2 = .failed e ∧
    e.label = "Expression.NonIntegerRange" ∧ RunError ExprError.IsRange e := by
  have hb : ((limited.build .standard).toOption.bind fun s =>
      (s.after [.step, .step]).step.2).map MachineError.label =
        some "Expression.NonIntegerRange" := by
    decide +kernel
  obtain ⟨e, he, hlabel⟩ := Option.map_eq_some_iff.mp hb
  obtain ⟨s, hs, he⟩ := Option.bind_eq_some_iff.mp he
  have hbuild : limited.build .standard = .ok s := toOption_eq_some_iff.mp hs
  have hfails : ((s.after [.step, .step]).perform .step).2 = .failed e := by
    rw [Simulator.perform, he]
    rfl
  exact ⟨s, e, hbuild, hfails, hlabel, (names_checked hbuild [.step, .step]).1 .step e hfails⟩

end DifferentialAnalyzer
