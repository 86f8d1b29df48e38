import DifferentialAnalyzer.Proofs.Description.Built
import DifferentialAnalyzer.Proofs.Expr.Staging

/-! The curves of function tables. The variables of a description are put into a formula before the
place on the table is known, so a variable that has the name of the place hides it. -/

namespace DifferentialAnalyzer

theorem evalText_congr {b b' : Bindings} (h : ∀ name, b.get? name = b'.get? name)
    (src : String) : evalText src b = evalText src b' := by
  simp only [evalText, Expr.eval_congr h]

namespace Curve

theorem eval_ofCompiled (c : Compiled) (x : Float) :
    (ofCompiled c).eval x = c.call [(argument, x)] := by
  cases c <;> rfl

/-- A formula means its argument, unless the scope has a value of that name. -/
theorem get?_supplement_argument (scope : Bindings) (x : Float) (name : String) :
    (scope.supplement [(argument, x)]).get? name =
      (scope.get? name).or (if name = argument then some x else none) := by
  rw [Bindings.get?_supplement]
  by_cases hname : name = argument
  · subst hname
    rfl
  · have hne : (name == argument) = false := by simpa using hname
    simp [hname, hne, Bindings.get?, List.lookup_cons]

/-- How a curve gets its heights from a formula over known variables. -/
structure Follows (curve : Curve) (formula : String) (scope : Bindings) : Prop where
  /-- The formula is evaluated at the place on the table. -/
  pointed : scope.get? argument = none →
    ∀ x, curve.eval x = evalText formula (scope.insert argument x)
  /-- A variable with the name of the place is what the formula means instead. -/
  hidden : scope.get? argument ≠ none → ∀ x, curve.eval x = evalText formula scope

theorem follows_of_compileText {formula : String} {scope : Bindings} {c : Compiled}
    (h : compileText formula scope = .ok c) : (ofCompiled c).Follows formula scope where
  pointed hx x := by
    rw [eval_ofCompiled, Compiled.call_of_compileText h]
    refine evalText_congr (fun name => ?_) formula
    rw [get?_supplement_argument, Bindings.get?_insert]
    by_cases hname : name = argument
    · simp [hname, hx]
    · simp [hname]
  hidden hx x := by
    obtain ⟨w, hw⟩ := Option.ne_none_iff_exists'.mp hx
    rw [eval_ofCompiled, Compiled.call_of_compileText h]
    refine evalText_congr (fun name => ?_) formula
    rw [get?_supplement_argument]
    by_cases hname : name = argument
    · simp [hname, hw]
    · simp [hname]

end Curve

/-- The height that the curve of a table has at a place. -/
def Device.height? (x : Float) : Device → Option (Except ExprError Float)
  | .functionTable t => some (t.curve.eval x)
  | _ => none

/-- A component that is a function table makes one, with a curve that follows the formula. -/
def Component.Traces (scope : Bindings) (c : Component) (device : Device) : Prop :=
  ∀ input output formula xMin xMax yMin yMax,
    c.part = .functionTable input output formula xMin xMax yMin yMax →
      ∃ t, device = .functionTable t ∧ t.curve.Follows formula scope

theorem Component.Makes.traces {spans : List ShaftSpan} {scope : Bindings}
    {options : BuildOptions} {p : Component × Nat} {made : String × Device}
    (h : Makes spans scope options p made) : p.1.Traces scope made.2 := by
  intro input output formula xMin xMax yMin yMax hpart
  have hmakes := h.2
  rw [hpart] at hmakes
  generalize made.2 = device at hmakes
  cases hmakes with
  | functionTable hi ho hc => exact ⟨_, rfl, Curve.follows_of_compileText hc⟩

theorem Component.map_fst_devices (next : Nat) (cs : List Component) :
    (devices next cs).map (·.1) = cs.filter (·.part.kind?.isSome) := by
  induction cs generalizing next with
  | nil => rfl
  | cons c cs ih =>
    cases hc : c.part.kind? with
    | none => simp [devices_cons_label hc, hc, ih]
    | some kind => simp [devices_cons hc, hc, ih]

namespace Description

/-- The devices of a machine, table by table: the curve of each follows the formula of its
component under the variables of the description. -/
theorem tables_follow {d : Description} {options : BuildOptions} {s : Simulator}
    (h : d.build options = .ok s) :
    ∃ chain, d.settings.resolve = .ok chain ∧
      List.Forall₂ (Component.Traces chain.toBindings)
        (d.components.filter (·.part.kind?.isSome)) s.devices.toList := by
  obtain ⟨chain, w, described, made, hchain, -, hcomplete, hs⟩ := complete_of_build h
  obtain ⟨-, topology, -, rfl⟩ := (Assembly.build_eq_ok_iff _ s).mp hs
  refine ⟨chain, hchain, ?_⟩
  rw [← Component.map_fst_devices d.shafts.length, Simulator.ofTopology, hcomplete.laid.devices,
    List.forall₂_map_left_iff, List.forall₂_map_right_iff]
  exact hcomplete.makes.imp fun _ _ hm => hm.traces

/-- A table the formula of which names a variable besides the place. -/
def traced : Description :=
  ⟨[⟨1, ⟨0, 0⟩, ⟨3, 0⟩⟩, ⟨2, ⟨0, 1⟩, ⟨3, 1⟩⟩],
    [⟨some 1, none, .motor 1 false (some 1.0)⟩,
      ⟨some 2, none, .functionTable 1 2 "k x" none none none none⟩],
    ⟨some "k = 3"⟩⟩

theorem tables_follow_traced : ∃ (s : Simulator) (chain : LetChain),
    traced.build .standard = .ok s ∧ traced.settings.resolve = .ok chain ∧
    chain.toBindings = [("k", 3.0)] ∧
    List.Forall₂ (Component.Traces chain.toBindings)
      (traced.components.filter (·.part.kind?.isSome)) s.devices.toList := by
  have hb : (traced.build .standard).toBool = true := by decide +kernel
  have hk : traced.settings.resolve.toOption.map LetChain.toBindings = some [("k", 3.0)] := by
    decide +kernel
  cases hs : traced.build .standard with
  | error e => simp [hs, Except.toBool] at hb
  | ok s =>
    obtain ⟨chain, hchain, hall⟩ := tables_follow hs
    refine ⟨s, chain, rfl, hchain, ?_, hall⟩
    simpa [hchain, Except.toOption] using hk

/-- The variable of this description has the name of the place on a table. -/
def pinned : Description :=
  { traced with settings := ⟨some "x = 2; k = 3"⟩ }

/-- There the formula at a place is another number than the curve has. -/
theorem pinned_not_pointed : ∃ (s : Simulator) (t : FunctionTable) (chain : LetChain),
    pinned.build .standard = .ok s ∧ s.devices[1]? = some (.functionTable t) ∧
    pinned.settings.resolve = .ok chain ∧ t.curve.eval 5.0 = .ok 6.0 ∧
    evalText "k x" (chain.toBindings.insert Curve.argument 5.0) = .ok 15.0 := by
  have hb : ((pinned.build .standard).toOption.bind fun s =>
      s.devices[1]?.bind (Device.height? 5.0)) = some (.ok 6.0) := by
    decide +kernel
  have hx : pinned.settings.resolve.toOption.map (fun chain =>
      evalText "k x" (chain.toBindings.insert Curve.argument 5.0)) = some (.ok 15.0) := by
    decide +kernel
  obtain ⟨s, hs, hb⟩ := Option.bind_eq_some_iff.mp hb
  obtain ⟨device, hdevice, hb⟩ := Option.bind_eq_some_iff.mp hb
  obtain ⟨chain, hchain, hx⟩ := Option.map_eq_some_iff.mp hx
  cases device with
  | functionTable t =>
    exact ⟨s, t, chain, toOption_eq_some_iff.mp hs, hdevice, toOption_eq_some_iff.mp hchain,
      Option.some.inj hb, hx⟩
  | _ => cases hb

end Description

end DifferentialAnalyzer
