import DifferentialAnalyzer.Proofs.Description.Built
import DifferentialAnalyzer.Proofs.Machine.Relabelled

/-! Descriptions that differ in layout only. Ids, places, notes and the bounds of drawings do not
reach the machine. -/

namespace DifferentialAnalyzer

open Description (Locates)

namespace Part

/-- The component with its shafts renamed, and with other bounds if it is a table. -/
def redrawn (f : ShaftKey → ShaftKey) (xMin xMax yMin yMax : Option Float) : Part → Part
  | .integrator input integrand output reversed initial =>
    .integrator (f input) (f integrand) (f output) reversed initial
  | .differential a sum b => .differential (a.map f) (sum.map f) (b.map f)
  | .multiplier input output factor => .multiplier (f input) (f output) factor
  | .functionTable input output formula .. =>
    .functionTable (f input) (f output) formula xMin xMax yMin yMax
  | .motor output reversed rotation => .motor (f output) reversed rotation
  | .outputTable input output1 output2 initial1 initial2 =>
    .outputTable (f input) (output1.map f) (output2.map f) initial1 initial2
  | .crossConnect horizontal vertical reversed =>
    .crossConnect (f horizontal) (f vertical) reversed
  | .gearPair shaft1 shaft2 inputRatio outputRatio =>
    .gearPair (f shaft1) (f shaft2) inputRatio outputRatio
  | .gear horizontal vertical => .gear (f horizontal) (f vertical)
  | .dial input => .dial (f input)
  | .label note => .label note

def Redraws (f : ShaftKey → ShaftKey) (p p' : Part) : Prop :=
  ∃ xMin xMax yMin yMax, p' = p.redrawn f xMin xMax yMin yMax

section Redraws

variable {f : ShaftKey → ShaftKey} {p p' : Part}

theorem openCount_map (slot : Option ShaftKey) : openCount (slot.map f) = openCount slot := by
  cases slot <;> rfl

theorem Redraws.isMotor (h : p.Redraws f p') : p'.isMotor = p.isMotor := by
  obtain ⟨xMin, xMax, yMin, yMax, rfl⟩ := h
  cases p <;> rfl

theorem Redraws.openSlots (h : p.Redraws f p') : p'.openSlots = p.openSlots := by
  obtain ⟨xMin, xMax, yMin, yMax, rfl⟩ := h
  cases p with
  | differential a sum b => simp only [redrawn, Part.openSlots, openCount_map]
  | _ => rfl

theorem shaftRefs_eq (p : Part) : p.shaftRefs =
    p.shaftFields.filterMap fun field => field.2.map fun key => (field.1, key) :=
  rfl

theorem shaftRefs_redrawn (xMin xMax yMin yMax : Option Float) :
    (p.redrawn f xMin xMax yMin yMax).shaftRefs = p.shaftRefs.map fun ref => (ref.1, f ref.2) := by
  have hmap : ∀ fields : List (String × Option ShaftKey),
      (fields.map fun field => (field.1, field.2.map f)).filterMap
        (fun field => field.2.map fun key => (field.1, key)) =
      (fields.filterMap fun field => field.2.map fun key => (field.1, key)).map
        fun ref => (ref.1, f ref.2) := by
    intro fields
    rw [List.filterMap_map, List.map_filterMap]
    refine List.filterMap_congr fun field _ => ?_
    obtain ⟨name, key⟩ := field
    cases key <;> rfl
  rw [shaftRefs_eq, shaftRefs_eq, ← hmap]
  cases p <;> rfl

variable {spans spans' : List ShaftSpan} {scope : Bindings} {options : BuildOptions} {own : Nat}

theorem Slot.redrawn (h : ∀ key id, Locates spans key id → Locates spans' (f key) id)
    {slot : Option ShaftKey} {id : ShaftId} (hs : Slot spans own slot id) :
    Slot spans' own (slot.map f) id := by
  cases slot with
  | none => exact hs
  | some key => exact h key id hs

/-- The same device is made if the shafts are in the same places. -/
theorem Makes.redrawn (h : ∀ key id, Locates spans key id → Locates spans' (f key) id)
    {d : Device} (hd : p.Makes spans scope options own d) (hp : p.Redraws f p') :
    p'.Makes spans' scope options own d := by
  obtain ⟨xMin, xMax, yMin, yMax, rfl⟩ := hp
  cases hd with
  | integrator hi hg ho reversed initial =>
    exact .integrator (h _ _ hi) (h _ _ hg) (h _ _ ho) reversed initial
  | differential hx hs hy =>
    refine .differential (hx.redrawn h) ?_ ?_
    · rw [openCount_map]
      exact hs.redrawn h
    · rw [openCount_map, openCount_map]
      exact hy.redrawn h
  | multiplier hi ho hx => exact .multiplier (h _ _ hi) (h _ _ ho) hx
  | functionTable hi ho hc hfree =>
    exact .functionTable (h _ _ hi) (h _ _ ho) hc hfree xMin xMax yMin yMax
  | motor ho reversed rotation => exact .motor (h _ _ ho) reversed rotation
  | twoCurves hx h1 h2 initial1 initial2 =>
    exact .twoCurves (h _ _ hx) (h _ _ h1) (h _ _ h2) initial1 initial2
  | firstCurve hx h1 initial1 initial2 =>
    exact .firstCurve (h _ _ hx) (h _ _ h1) initial1 initial2
  | secondCurve hx h2 initial1 initial2 =>
    exact .secondCurve (h _ _ hx) (h _ _ h2) initial1 initial2
  | crossConnect hh hv reversed => exact .crossConnect (h _ _ hh) (h _ _ hv) reversed
  | gearPair ha hb inputRatio outputRatio =>
    exact .gearPair (h _ _ ha) (h _ _ hb) inputRatio outputRatio
  | gear hh hv => exact .gear (h _ _ hh) (h _ _ hv)
  | dial hi => exact .dial (h _ _ hi)

end Redraws

end Part

theorem Factor.value_of_means {f : Factor} {scope : Bindings} {x : Float} (h : f.Means scope x)
    (owner : String) : f.value owner scope = .ok x := by
  cases f with
  | number y =>
    obtain rfl : x = y := h
    rfl
  | formula source =>
    obtain ⟨e, he, hx⟩ := bind_eq_ok_iff.mp h
    obtain ⟨r, hr, hx⟩ := bind_eq_ok_iff.mp hx
    have hc : compileText source scope = .ok (.ofResidue r) :=
      bind_eq_ok_iff.mpr ⟨e, he, bind_eq_ok_iff.mpr ⟨r, hr, rfl⟩⟩
    have hconstant : (Compiled.ofResidue r).constant? = some x := by
      rw [Compiled.constant?_ofResidue, Expr.finish_eq_ok_iff.mp hx]
    simp [value, hc, hconstant, Except.mapError]

theorem Curve.ofFormula_eq_ok {source : String} {scope : Bindings} {c : Compiled}
    (hc : compileText source scope = .ok c) (hfree : ∀ name ∈ c.free, name = argument)
    (owner : String) : ofFormula source owner scope = .ok (.ofCompiled c) := by
  have hnil : c.free.filter (· != argument) = [] :=
    List.filter_eq_nil_iff.mpr fun name hname => by simp [hfree name hname]
  simp [ofFormula, hc, hnil, Except.mapError]

namespace Wiring

variable {w : Wiring} {spans : List ShaftSpan} {all : List Topology.Shaft}
  {made : List (String × Device)} {scope : Bindings} {options : BuildOptions}

theorem Laid.shaft_eq (h : w.Laid spans all made) {key : ShaftKey} {id : ShaftId}
    (hid : Locates spans key id) : w.shaft key = .ok id := by
  rw [Wiring.shaft, (h.keys key id).mpr hid]
  rfl

theorem Laid.slot_eq (h : w.Laid spans all made) {slot : Option ShaftKey} {id : ShaftId}
    (hs : Part.Slot spans all.length slot id) (owner : String) :
    ∃ w', w.slot owner slot = .ok (w', id) ∧ w'.Laid spans
      (all ++ List.replicate (Part.openCount slot) ⟨s!"{owner} (floating)", .point⟩) made := by
  cases slot with
  | some key =>
    exact ⟨w, by simp [Wiring.slot, h.shaft_eq hs], by simpa [Part.openCount] using h⟩
  | none =>
    obtain ⟨w', id', hslot, hid, hlaid⟩ := h.slot owner none (by simp)
    obtain rfl : id' = id := Eq.trans hid (Eq.symm hs)
    exact ⟨w', hslot, hlaid⟩

theorem addPart_of_kind? {part : Part} (h : part.kind? = none) (label : String) :
    w.addPart label scope options part = .ok w := by
  cases part with
  | label note => rfl
  | _ => cases h

/-- A component for which there is a device gets that device. -/
theorem Laid.addPart_of_makes (h : w.Laid spans all made) {part : Part} {d : Device}
    (hd : part.Makes spans scope options all.length d) (label : String) :
    ∃ w', w.addPart label scope options part = .ok w' ∧
      w'.Laid spans (all ++ List.replicate part.openSlots ⟨s!"{label} (floating)", .point⟩)
        (made ++ [(label, d)]) := by
  have hclosed : part.openSlots = 0 →
      w.addPart label scope options part = .ok (w.addDevice label d) →
      ∃ w', w.addPart label scope options part = .ok w' ∧
        w'.Laid spans (all ++ List.replicate part.openSlots ⟨s!"{label} (floating)", .point⟩)
          (made ++ [(label, d)]) := by
    intro hopen hadd
    refine ⟨_, hadd, ?_⟩
    rw [hopen, List.replicate_zero, List.append_nil]
    exact h.addDevice label d
  cases hd with
  | integrator hi hg ho =>
    exact hclosed rfl (by
      simp only [Wiring.addPart, h.shaft_eq hi, h.shaft_eq hg, h.shaft_eq ho, ok_bind])
  | @differential a sum b x s y hx hs hy =>
    obtain ⟨w₁, h₁, hw₁⟩ := h.slot_eq hx label
    rw [← List.length_replicate (n := Part.openCount a), ← List.length_append] at hs hy
    obtain ⟨w₂, h₂, hw₂⟩ := hw₁.slot_eq hs label
    rw [← List.length_replicate (n := Part.openCount sum), ← List.length_append] at hy
    obtain ⟨w₃, h₃, hw₃⟩ := hw₂.slot_eq hy label
    refine ⟨_, by simp only [Wiring.addPart, h₁, h₂, h₃, ok_bind]; rfl, ?_⟩
    simpa only [Part.openSlots, List.replicate_add, List.append_assoc] using hw₃.addDevice label _
  | multiplier hi ho hx =>
    exact hclosed rfl (by
      simp only [Wiring.addPart, h.shaft_eq hi, h.shaft_eq ho, Factor.value_of_means hx, ok_bind])
  | functionTable hi ho hc hfree =>
    exact hclosed rfl (by
      simp only [Wiring.addPart, h.shaft_eq hi, h.shaft_eq ho, Curve.ofFormula_eq_ok hc hfree,
        ok_bind])
  | motor ho =>
    exact hclosed rfl (by simp only [Wiring.addPart, h.shaft_eq ho, ok_bind, BuildOptions.rotation])
  | twoCurves hx h1 h2 =>
    exact hclosed rfl (by
      simp only [Wiring.addPart, h.shaft_eq hx, h.shaft_eq h1, h.shaft_eq h2, ok_bind])
  | firstCurve hx h1 | secondCurve hx h1 =>
    exact hclosed rfl (by simp only [Wiring.addPart, h.shaft_eq hx, h.shaft_eq h1, ok_bind])
  | crossConnect h1 h2 | gearPair h1 h2 | gear h1 h2 =>
    exact hclosed rfl (by simp only [Wiring.addPart, h.shaft_eq h1, h.shaft_eq h2, ok_bind])
  | dial hi => exact hclosed rfl (by simp only [Wiring.addPart, h.shaft_eq hi, ok_bind])

theorem Laid.addComponents_of_makes (h : w.Laid spans all made) {cs : List Component}
    {ds : List Device} (hds : List.Forall₂
      (fun p d => p.1.part.Makes spans scope options p.2 d) (Component.devices all.length cs) ds) :
    ∃ w' added, w.addComponents scope options cs = .ok w' ∧
      w'.Laid spans (all ++ cs.flatMap Component.ownShafts) (made ++ added) ∧
      added.map (·.2) = ds := by
  induction cs generalizing w all made ds with
  | nil =>
    obtain rfl := List.forall₂_nil_left_iff.mp hds
    exact ⟨w, [], rfl, by simpa using h, rfl⟩
  | cons c cs ih =>
    cases hc : c.part.kind? with
    | none =>
      rw [Component.devices_cons_label hc] at hds
      obtain ⟨w', added, hadd, hlaid, hadded⟩ := ih h hds
      refine ⟨w', added, ?_, ?_, hadded⟩
      · rw [Wiring.addComponents, addPart_of_kind? hc]
        exact hadd
      · simpa [Component.ownShafts, Part.openSlots_of_kind? hc] using hlaid
    | some kind =>
      rw [Component.devices_cons hc] at hds
      obtain ⟨d, ds, hd, hrest, rfl⟩ := List.forall₂_cons_left_iff.mp hds
      obtain ⟨w₁, hpart, hw₁⟩ := h.addPart_of_makes hd c.label
      obtain ⟨w', added, hadd, hlaid, hadded⟩ := ih hw₁ (by simpa using hrest)
      refine ⟨w', (c.label, d) :: added, ?_, ?_, by simp [hadded]⟩
      · rw [Wiring.addComponents, hpart]
        exact hadd
      · simpa [Component.ownShafts] using hlaid

end Wiring

namespace Part

/-- Parts with the index of the first shaft of their own, if shafts are numbered from `next` on. -/
def placed (next : Nat) : List Part → List (Part × Nat)
  | [] => []
  | p :: rest => (p, next) :: placed (next + p.openSlots) rest

theorem makes_redraws {f : ShaftKey → ShaftKey} {spans spans' : List ShaftSpan} {scope : Bindings}
    {options : BuildOptions}
    (hlocates : ∀ key id, Locates spans key id → Locates spans' (f key) id)
    {ps ps' : List Part} (h : List.Forall₂ (Redraws f) ps ps') {next : Nat} {ds : List Device}
    (hds : List.Forall₂ (fun p d => p.1.Makes spans scope options p.2 d) (placed next ps) ds) :
    List.Forall₂ (fun p d => p.1.Makes spans' scope options p.2 d) (placed next ps') ds := by
  induction h generalizing next ds with
  | nil =>
    rw [placed] at hds
    obtain rfl := List.forall₂_nil_left_iff.mp hds
    exact .nil
  | @cons p p' ps ps' hp _ ih =>
    obtain ⟨d, ds, hd, hrest, rfl⟩ := List.forall₂_cons_left_iff.mp hds
    rw [placed, hp.openSlots]
    exact .cons (hd.redrawn hlocates hp) (ih hrest)

end Part

namespace Component

/-- The parts of those components that make devices. -/
def parts (cs : List Component) : List Part :=
  (cs.map (·.part)).filter (·.kind?.isSome)

theorem parts_cons_label {c : Component} (hc : c.part.kind? = none) (cs : List Component) :
    parts (c :: cs) = parts cs := by
  simp [parts, hc]

theorem parts_cons {c : Component} {kind : DeviceKind} (hc : c.part.kind? = some kind)
    (cs : List Component) : parts (c :: cs) = c.part :: parts cs := by
  simp [parts, hc]

theorem placed_parts (next : Nat) (cs : List Component) :
    Part.placed next (parts cs) = (devices next cs).map fun p => (p.1.part, p.2) := by
  induction cs generalizing next with
  | nil => rfl
  | cons c cs ih =>
    cases hc : c.part.kind? with
    | none => rw [parts_cons_label hc, devices_cons_label hc, ih]
    | some kind => rw [parts_cons hc, devices_cons hc, Part.placed, ih, List.map_cons]

theorem length_ownShafts (cs : List Component) :
    (cs.flatMap ownShafts).length = ((parts cs).map Part.openSlots).sum := by
  induction cs with
  | nil => rfl
  | cons c cs ih =>
    cases hc : c.part.kind? with
    | none =>
      rw [parts_cons_label hc, ← ih]
      simp [ownShafts, Part.openSlots_of_kind? hc]
    | some kind =>
      rw [parts_cons hc, List.map_cons, List.sum_cons, ← ih]
      simp [ownShafts]

theorem mem_parts_iff {p : Part} {cs : List Component} :
    p ∈ parts cs ↔ p.kind?.isSome = true ∧ ∃ c ∈ cs, c.part = p := by
  rw [parts, List.mem_filter, List.mem_map, and_comm]

end Component

end DifferentialAnalyzer
