import DifferentialAnalyzer.Description.Build
import DifferentialAnalyzer.Proofs.Description.Validity
import DifferentialAnalyzer.Proofs.Expr.Meaning
import DifferentialAnalyzer.Proofs.Machine.Operation
import DifferentialAnalyzer.Proofs.Topology.Naming

/-! The machine that a description stands for, said without building it: which shafts there are, and
for every component the device it makes and the shafts that device is on. Building gives this
machine. -/

namespace DifferentialAnalyzer

open Description (Locates)

namespace Part

/-- The kind of device that a component makes; a label makes none. -/
def kind? : Part → Option DeviceKind
  | .integrator .. => some .integrator
  | .differential .. => some .differential
  | .multiplier .. => some .multiplier
  | .functionTable .. => some .functionTable
  | .motor .. => some .motor
  | .outputTable .. => some .outputTable
  | .crossConnect .. => some .crossConnect
  | .gearPair .. => some .gearPair
  | .gear .. => some .gear
  | .dial _ => some .dial
  | .label _ => none

def openCount (slot : Option ShaftKey) : Nat :=
  if slot.isNone then 1 else 0

/-- How many shafts of its own a component needs. -/
def openSlots : Part → Nat
  | .differential a sum b => openCount a + openCount sum + openCount b
  | _ => 0

theorem openSlots_of_kind? {p : Part} (h : p.kind? = none) : p.openSlots = 0 := by
  cases p <;> simp_all [kind?, openSlots]

/-- The shaft of a slot: the one that is named, or else the one with index `own`. -/
def Slot (spans : List ShaftSpan) (own : Nat) : Option ShaftKey → ShaftId → Prop
  | some key, id => Locates spans key id
  | none, id => id = ⟨own⟩

end Part

/-- What a factor is worth. -/
def Factor.Means (scope : Bindings) : Factor → Float → Prop
  | .number x, y => y = x
  | .formula source, y => evalText source scope = .ok y

/-- The device that a component makes. Its own shafts are numbered from `own` on. -/
inductive Part.Makes (spans : List ShaftSpan) (scope : Bindings) (options : BuildOptions)
    (own : Nat) : Part → Device → Prop
  | integrator {input integrand output : ShaftKey} {i g o : ShaftId} (hi : Locates spans input i)
      (hg : Locates spans integrand g) (ho : Locates spans output o) (reversed : Bool)
      (initial : Float) :
      Makes spans scope options own (.integrator input integrand output reversed initial)
        (.ofIntegrator i g o initial reversed)
  | differential {a sum b : Option ShaftKey} {x s y : ShaftId} (hx : Slot spans own a x)
      (hs : Slot spans (own + openCount a) sum s)
      (hy : Slot spans (own + openCount a + openCount sum) b y) :
      Makes spans scope options own (.differential a sum b) (.differential x s y)
  | multiplier {input output : ShaftKey} {i o : ShaftId} {factor : Factor} {x : Float}
      (hi : Locates spans input i) (ho : Locates spans output o) (hx : factor.Means scope x) :
      Makes spans scope options own (.multiplier input output factor) (.multiplier i o x)
  | functionTable {input output : ShaftKey} {i o : ShaftId} {formula : String} {c : Compiled}
      (hi : Locates spans input i) (ho : Locates spans output o)
      (hc : compileText formula scope = .ok c) (hfree : ∀ name ∈ c.free, name = Curve.argument)
      (xMin xMax yMin yMax : Option Float) :
      Makes spans scope options own (.functionTable input output formula xMin xMax yMin yMax)
        (.ofCurve i o (.ofCompiled c) 0.0)
  | motor {output : ShaftKey} {o : ShaftId} (ho : Locates spans output o) (reversed : Bool)
      (rotation : Option Float) :
      Makes spans scope options own (.motor output reversed rotation)
        (.motor o ((options.motorRotation.or rotation).getD 1.0) reversed)
  | twoCurves {input output1 output2 : ShaftKey} {x y1 y2 : ShaftId} (hx : Locates spans input x)
      (h1 : Locates spans output1 y1) (h2 : Locates spans output2 y2)
      (initial1 initial2 : Float) :
      Makes spans scope options own
        (.outputTable input (some output1) (some output2) initial1 initial2)
        (.outputTable (.ofShafts x y1 (some y2) 0.0 initial1 initial2))
  | firstCurve {input output1 : ShaftKey} {x y1 : ShaftId} (hx : Locates spans input x)
      (h1 : Locates spans output1 y1) (initial1 initial2 : Float) :
      Makes spans scope options own (.outputTable input (some output1) none initial1 initial2)
        (.outputTable (.ofShafts x y1 none 0.0 initial1 0.0))
  /-- A second output without a first one takes its place, with its own initial value. -/
  | secondCurve {input output2 : ShaftKey} {x y1 : ShaftId} (hx : Locates spans input x)
      (h2 : Locates spans output2 y1) (initial1 initial2 : Float) :
      Makes spans scope options own (.outputTable input none (some output2) initial1 initial2)
        (.outputTable (.ofShafts x y1 none 0.0 initial2 0.0))
  | crossConnect {horizontal vertical : ShaftKey} {h v : ShaftId}
      (hh : Locates spans horizontal h) (hv : Locates spans vertical v) (reversed : Bool) :
      Makes spans scope options own (.crossConnect horizontal vertical reversed)
        (.crossConnect h v reversed)
  | gearPair {shaft1 shaft2 : ShaftKey} {a b : ShaftId} (ha : Locates spans shaft1 a)
      (hb : Locates spans shaft2 b) (inputRatio outputRatio : Float) :
      Makes spans scope options own (.gearPair shaft1 shaft2 inputRatio outputRatio)
        (.gearPair a b (outputRatio / inputRatio))
  | gear {horizontal vertical : ShaftKey} {h v : ShaftId} (hh : Locates spans horizontal h)
      (hv : Locates spans vertical v) :
      Makes spans scope options own (.gear horizontal vertical) (.gear h v)
  | dial {input : ShaftKey} {i : ShaftId} (hi : Locates spans input i) :
      Makes spans scope options own (.dial input) (.ofDial i 0.0)

theorem Part.Makes.kind {spans : List ShaftSpan} {scope : Bindings} {options : BuildOptions}
    {own : Nat} {p : Part} {d : Device} (h : p.Makes spans scope options own d) :
    p.kind? = some d.kind := by
  cases h <;> rfl

namespace Component

/-- The shafts that a component gets for the slots it leaves open. -/
def ownShafts (c : Component) : List Topology.Shaft :=
  List.replicate c.part.openSlots ⟨s!"{c.label} (floating)", .point⟩

/-- Components with the index of the first shaft of their own, if shafts are numbered from `next`
on. -/
def placed (next : Nat) : List Component → List (Component × Nat)
  | [] => []
  | c :: rest => (c, next) :: placed (next + c.part.openSlots) rest

/-- The components that make devices. -/
def devices (next : Nat) (cs : List Component) : List (Component × Nat) :=
  (placed next cs).filter fun p => p.1.part.kind?.isSome

theorem devices_cons_label {c : Component} (hc : c.part.kind? = none) (next : Nat)
    (cs : List Component) : devices next (c :: cs) = devices next cs := by
  simp [devices, placed, hc, Part.openSlots_of_kind? hc]

theorem devices_cons {c : Component} {kind : DeviceKind} (hc : c.part.kind? = some kind)
    (next : Nat) (cs : List Component) :
    devices next (c :: cs) = (c, next) :: devices (next + c.part.openSlots) cs := by
  simp [devices, placed, hc]

theorem mem_of_mem_placed {p : Component × Nat} {next : Nat} {cs : List Component}
    (h : p ∈ placed next cs) : p.1 ∈ cs := by
  induction cs generalizing next with
  | nil => cases h
  | cons c cs ih =>
    rcases List.mem_cons.mp h with rfl | h
    · exact List.mem_cons_self
    · exact List.mem_cons_of_mem _ (ih h)

/-- A component with the index of the first shaft of its own makes a device of its name. -/
def Makes (spans : List ShaftSpan) (scope : Bindings) (options : BuildOptions)
    (p : Component × Nat) (made : String × Device) : Prop :=
  made.1 = p.1.label ∧ p.1.part.Makes spans scope options p.2 made.2

end Component

theorem Compiled.constant?_ofResidue (r : Residue) : (ofResidue r).constant? = r.expr.value? := by
  obtain ⟨e, names⟩ := r
  cases e <;> rfl

/-- A factor has the value that it means, or else its formula is to blame. -/
theorem Factor.value_cases (f : Factor) (owner : String) (scope : Bindings) :
    (∃ cause, f.value owner scope = .error (.expression owner cause)) ∨
      ∃ x, f.value owner scope = .ok x ∧ f.Means scope x := by
  cases f with
  | number x => exact .inr ⟨x, rfl, rfl⟩
  | formula source =>
    cases hc : compileText source scope with
    | error cause => exact .inl ⟨cause, by simp [value, hc, Except.mapError]⟩
    | ok c =>
      cases hx : c.constant? with
      | none =>
        exact .inl ⟨.undefinedVariables c.free, by simp [value, hc, hx, Except.mapError]⟩
      | some x =>
        refine .inr ⟨x, by simp [value, hc, hx, Except.mapError], ?_⟩
        obtain ⟨e, he, hc⟩ := bind_eq_ok_iff.mp hc
        obtain ⟨r, hr, hc⟩ := bind_eq_ok_iff.mp hc
        obtain rfl := Except.ok.inj hc
        rw [Compiled.constant?_ofResidue] at hx
        exact bind_eq_ok_iff.mpr ⟨e, he, bind_eq_ok_iff.mpr ⟨r, hr, Expr.finish_eq_ok_iff.mpr hx⟩⟩

theorem Curve.ofFormula_cases (source owner : String) (scope : Bindings) :
    (∃ cause, ofFormula source owner scope = .error (.expression owner cause)) ∨
      ∃ c, ofFormula source owner scope = .ok (.ofCompiled c) ∧
        compileText source scope = .ok c ∧ ∀ name ∈ c.free, name = argument := by
  cases hc : compileText source scope with
  | error cause => exact .inl ⟨cause, by simp [ofFormula, hc, Except.mapError]⟩
  | ok c =>
    cases hfree : c.free.filter (· != argument) with
    | nil =>
      refine .inr ⟨c, by simp [ofFormula, hc, hfree, Except.mapError], rfl, fun name hname => ?_⟩
      simpa using List.filter_eq_nil_iff.mp hfree name hname
    | cons name names =>
      exact .inl ⟨.undefinedVariables (name :: names),
        by simp [ofFormula, hc, hfree, Except.mapError]⟩

namespace Wiring

/-- The machine under construction, with the described shafts `spans` and with these shafts and
devices altogether. -/
structure Laid (w : Wiring) (spans : List ShaftSpan) (all : List Topology.Shaft)
    (made : List (String × Device)) : Prop where
  shafts : w.assembly.draft.shafts.toList = all
  devices : w.assembly.devices.toList = made.map (·.2)
  names : w.assembly.draft.nodes.toList.map (·.name) = made.map (·.1)
  holds : w.assembly.draft.Holds (made.map (·.2.fitting))
  keys : ∀ key id, w.keys.get key = .ok id ↔ Locates spans key id

theorem laid_empty : empty.Laid [] [] [] where
  shafts := rfl
  devices := rfl
  names := rfl
  holds := Topology.Draft.holds_empty
  keys key id := by simp [empty, ShaftKeys.empty, ShaftKeys.get, Locates]

section Laid

variable {w : Wiring} {spans : List ShaftSpan} {all : List Topology.Shaft}
  {made : List (String × Device)}

theorem Laid.size (h : w.Laid spans all made) :
    w.assembly.draft.shafts.size = all.length := by
  rw [← h.shafts, Array.length_toList]

theorem Laid.addDevice (h : w.Laid spans all made) (name : String) (d : Device) :
    (w.addDevice name d).Laid spans all (made ++ [(name, d)]) where
  shafts := h.shafts
  devices := by simp [Wiring.addDevice, Assembly.addDevice, h.devices]
  names := by simp [Wiring.addDevice, Assembly.addDevice, Topology.Draft.addDevice, h.names]
  holds := by
    rw [List.map_append]
    exact h.holds.addDevice name d.fitting
  keys := h.keys

theorem Laid.withShaft (h : w.Laid spans all made) (name : String) (o : Orientation)
    {keys : ShaftKeys} {spans' : List ShaftSpan}
    (hkeys : ∀ key id, keys.get key = .ok id ↔ Locates spans' key id) :
    (⟨(w.assembly.addShaft name o).1, keys⟩ : Wiring).Laid spans' (all ++ [⟨name, o⟩])
      made where
  shafts := by simp [Assembly.addShaft, Topology.Draft.addShaft, h.shafts]
  devices := h.devices
  names := h.names
  holds := h.holds.addShaft name o
  keys := hkeys

theorem Laid.shaft (h : w.Laid spans all made) {key : ShaftKey}
    (hkey : ∃ id, Locates spans key id) :
    ∃ id, w.shaft key = .ok id ∧ Locates spans key id := by
  obtain ⟨id, hid⟩ := hkey
  exact ⟨id, by rw [Wiring.shaft, (h.keys key id).mpr hid]; rfl, hid⟩

theorem Laid.slot (h : w.Laid spans all made) (owner : String) (slot : Option ShaftKey)
    (hslot : ∀ key, slot = some key → ∃ id, Locates spans key id) :
    ∃ w' id, w.slot owner slot = .ok (w', id) ∧ Part.Slot spans all.length slot id ∧
      w'.Laid spans (all ++ List.replicate (Part.openCount slot) ⟨s!"{owner} (floating)", .point⟩)
        made := by
  cases slot with
  | some key =>
    obtain ⟨id, hid, hlocates⟩ := h.shaft (hslot key rfl)
    exact ⟨w, id, by simp [Wiring.slot, hid], hlocates, by simpa [Part.openCount] using h⟩
  | none =>
    have hid : (w.assembly.addShaft s!"{owner} (floating)" .point).2 = ⟨all.length⟩ := by
      rw [← h.size]
      rfl
    exact ⟨_, _, rfl, hid, h.withShaft _ .point h.keys⟩

theorem Laid.addShaft (h : w.Laid spans all made) (hlen : all.length = spans.length)
    {s : ShaftSpan} (hs : s.key ∉ spans.map (·.key)) (o : Orientation) :
    ∃ w', w.addShaft s o = .ok w' ∧
      w'.Laid (spans ++ [s]) (all ++ [⟨s!"shaft {s.key}", o⟩]) made := by
  have hnew : ∀ id, w.keys.get s.key ≠ .ok id := fun id hid =>
    hs (Description.exists_locates_iff.mp ⟨id, (h.keys _ _).mp hid⟩)
  obtain ⟨keys, hinsert, hget⟩ := ShaftKeys.exists_insert hnew ⟨w.assembly.draft.shafts.size⟩
  refine ⟨_, bind_eq_ok_iff.mpr ⟨keys, mapError_eq_ok_iff.mpr hinsert, rfl⟩, ?_⟩
  refine h.withShaft _ o fun key id => ?_
  rw [hget, h.keys, Description.locates_concat_iff, h.size, hlen]

theorem Laid.addShafts (h : w.Laid spans all made) (hlen : all.length = spans.length)
    (known : Orientations) {rest : List ShaftSpan}
    (hnodup : ((spans ++ rest).map (·.key)).Nodup) :
    ∃ w', w.addShafts known rest = .ok w' ∧ w'.Laid (spans ++ rest)
      (all ++ rest.map fun s => ⟨s!"shaft {s.key}", (known.lookup s.key).getD .point⟩) made := by
  induction rest generalizing w spans all with
  | nil => exact ⟨w, rfl, by simpa using h⟩
  | cons s rest ih =>
    have hs : s.key ∉ spans.map (·.key) := by
      rw [List.map_append, List.map_cons, List.nodup_append] at hnodup
      exact fun hmem => hnodup.2.2 _ hmem _ List.mem_cons_self rfl
    obtain ⟨w₁, h₁, hlaid⟩ := h.addShaft hlen hs ((known.lookup s.key).getD .point)
    obtain ⟨w₂, h₂, hlaid⟩ := ih hlaid (by simp [hlen]) (by simpa using hnodup)
    refine ⟨w₂, bind_eq_ok_iff.mpr ⟨w₁, h₁, h₂⟩, ?_⟩
    simpa using hlaid

end Laid

/-- What it can lead to that a component is added to the machine under construction. -/
inductive Adds (w : Wiring) (spans : List ShaftSpan) (all : List Topology.Shaft)
    (made : List (String × Device)) (label : String) (scope : Bindings) (options : BuildOptions)
    (part : Part) : Except DescriptionError Wiring → Prop
  | failed (cause : ExprError) :
      Adds w spans all made label scope options part (.error (.expression label cause))
  | label (hpart : part.kind? = none) : Adds w spans all made label scope options part (.ok w)
  | device {w' : Wiring} {d : Device} (hd : part.Makes spans scope options all.length d)
      (hw : w'.Laid spans
        (all ++ List.replicate part.openSlots ⟨s!"{label} (floating)", .point⟩)
        (made ++ [(label, d)])) : Adds w spans all made label scope options part (.ok w')

section Laid

variable {w : Wiring} {spans : List ShaftSpan} {all : List Topology.Shaft}
  {made : List (String × Device)} {label : String} {scope : Bindings} {options : BuildOptions}

/-- A component without shafts of its own. -/
theorem Laid.adds (h : w.Laid spans all made) {part : Part} (hopen : part.openSlots = 0)
    {d : Device} (hd : part.Makes spans scope options all.length d) :
    Adds w spans all made label scope options part (.ok (w.addDevice label d)) := by
  refine .device hd ?_
  rw [hopen, List.replicate_zero, List.append_nil]
  exact h.addDevice label d

theorem Laid.addPart (h : w.Laid spans all made) {part : Part} (hp : part.Described spans) :
    Adds w spans all made label scope options part (w.addPart label scope options part) := by
  have hrefs := hp.refs
  cases part with
  | integrator input integrand output reversed initial =>
    obtain ⟨i, hi, hi'⟩ := h.shaft (hrefs "variableOfIntegrationShaft" input (by
      simp [Part.shaftFields]))
    obtain ⟨g, hg, hg'⟩ := h.shaft (hrefs "integrandShaft" integrand (by simp [Part.shaftFields]))
    obtain ⟨o, ho, ho'⟩ := h.shaft (hrefs "outputShaft" output (by simp [Part.shaftFields]))
    simp only [Wiring.addPart, hi, hg, ho, ok_bind]
    exact h.adds rfl (.integrator hi' hg' ho' reversed initial)
  | differential a sum b =>
    obtain ⟨w₁, x, h₁, hx, hw₁⟩ := h.slot label a fun key ha =>
      hrefs "diffShaft1" key (by simp [Part.shaftFields, ha])
    obtain ⟨w₂, s, h₂, hs, hw₂⟩ := hw₁.slot label sum fun key hsum =>
      hrefs "sumShaft" key (by simp [Part.shaftFields, hsum])
    obtain ⟨w₃, y, h₃, hy, hw₃⟩ := hw₂.slot label b fun key hb =>
      hrefs "diffShaft2" key (by simp [Part.shaftFields, hb])
    simp only [Wiring.addPart, h₁, h₂, h₃, ok_bind]
    simp only [List.length_append, List.length_replicate] at hs hy
    refine .device (.differential hx hs hy) ?_
    simpa only [Part.openSlots, List.replicate_add, List.append_assoc] using hw₃.addDevice label _
  | multiplier input output factor =>
    obtain ⟨i, hi, hi'⟩ := h.shaft (hrefs "inputShaft" input (by simp [Part.shaftFields]))
    obtain ⟨o, ho, ho'⟩ := h.shaft (hrefs "outputShaft" output (by simp [Part.shaftFields]))
    simp only [Wiring.addPart, hi, ho, ok_bind]
    rcases factor.value_cases label scope with ⟨cause, hx⟩ | ⟨x, hx, hmeans⟩
    · rw [hx]
      exact .failed cause
    · rw [hx]
      exact h.adds rfl (.multiplier hi' ho' hmeans)
  | functionTable input output formula xMin xMax yMin yMax =>
    obtain ⟨i, hi, hi'⟩ := h.shaft (hrefs "inputShaft" input (by simp [Part.shaftFields]))
    obtain ⟨o, ho, ho'⟩ := h.shaft (hrefs "outputShaft" output (by simp [Part.shaftFields]))
    simp only [Wiring.addPart, hi, ho, ok_bind]
    rcases Curve.ofFormula_cases formula label scope with ⟨cause, hc⟩ | ⟨c, hcurve, hc, hfree⟩
    · rw [hc]
      exact .failed cause
    · rw [hcurve]
      exact h.adds rfl (.functionTable hi' ho' hc hfree xMin xMax yMin yMax)
  | motor output reversed rotation =>
    obtain ⟨o, ho, ho'⟩ := h.shaft (hrefs "outputShaft" output (by simp [Part.shaftFields]))
    simp only [Wiring.addPart, ho, ok_bind]
    exact h.adds rfl (.motor ho' reversed rotation)
  | outputTable input output1 output2 initial1 initial2 =>
    obtain ⟨x, hx, hx'⟩ := h.shaft (hrefs "inputShaft" input (by simp [Part.shaftFields]))
    cases output1 with
    | some output1 =>
      obtain ⟨y1, h1, h1'⟩ := h.shaft (hrefs "outputShaft1" output1 (by simp [Part.shaftFields]))
      cases output2 with
      | some output2 =>
        obtain ⟨y2, h2, h2'⟩ := h.shaft (hrefs "outputShaft2" output2 (by
          simp [Part.shaftFields]))
        simp only [Wiring.addPart, hx, h1, h2, ok_bind]
        exact h.adds rfl (.twoCurves hx' h1' h2' initial1 initial2)
      | none =>
        simp only [Wiring.addPart, hx, h1, ok_bind]
        exact h.adds rfl (.firstCurve hx' h1' initial1 initial2)
    | none =>
      cases output2 with
      | some output2 =>
        obtain ⟨y1, h2, h2'⟩ := h.shaft (hrefs "outputShaft2" output2 (by
          simp [Part.shaftFields]))
        simp only [Wiring.addPart, hx, h2, ok_bind]
        exact h.adds rfl (.secondCurve hx' h2' initial1 initial2)
      | none => exact absurd rfl (hp.output input initial1 initial2)
  | crossConnect horizontal vertical reversed =>
    obtain ⟨a, ha, ha'⟩ := h.shaft (hrefs "horizontal" horizontal (by simp [Part.shaftFields]))
    obtain ⟨b, hb, hb'⟩ := h.shaft (hrefs "vertical" vertical (by simp [Part.shaftFields]))
    simp only [Wiring.addPart, ha, hb, ok_bind]
    exact h.adds rfl (.crossConnect ha' hb' reversed)
  | gearPair shaft1 shaft2 inputRatio outputRatio =>
    obtain ⟨a, ha, ha'⟩ := h.shaft (hrefs "shaft1" shaft1 (by simp [Part.shaftFields]))
    obtain ⟨b, hb, hb'⟩ := h.shaft (hrefs "shaft2" shaft2 (by simp [Part.shaftFields]))
    simp only [Wiring.addPart, ha, hb, ok_bind]
    exact h.adds rfl (.gearPair ha' hb' inputRatio outputRatio)
  | gear horizontal vertical =>
    obtain ⟨a, ha, ha'⟩ := h.shaft (hrefs "horizontal" horizontal (by simp [Part.shaftFields]))
    obtain ⟨b, hb, hb'⟩ := h.shaft (hrefs "vertical" vertical (by simp [Part.shaftFields]))
    simp only [Wiring.addPart, ha, hb, ok_bind]
    exact h.adds rfl (.gear ha' hb')
  | dial input =>
    obtain ⟨i, hi, hi'⟩ := h.shaft (hrefs "inputShaft" input (by simp [Part.shaftFields]))
    simp only [Wiring.addPart, hi, ok_bind]
    exact h.adds rfl (.dial hi')
  | label note => exact .label rfl

theorem Laid.addComponents (h : w.Laid spans all made) (scope : Bindings)
    (options : BuildOptions) {cs : List Component}
    (hcs : ∀ c ∈ cs, c.part.Described spans) :
    (∃ c ∈ cs, ∃ cause,
      w.addComponents scope options cs = .error (.expression c.label cause)) ∨
    ∃ w' added, w.addComponents scope options cs = .ok w' ∧
      w'.Laid spans (all ++ cs.flatMap Component.ownShafts) (made ++ added) ∧
      List.Forall₂ (Component.Makes spans scope options) (Component.devices all.length cs)
        added := by
  induction cs generalizing w all made with
  | nil => exact .inr ⟨w, [], rfl, by simpa using h, .nil⟩
  | cons c rest ih =>
    obtain ⟨hc, hrest⟩ := List.forall_mem_cons.mp hcs
    have hadds : Adds w spans all made c.label scope options c.part
      (w.addPart c.label scope options c.part) := h.addPart hc
    rw [Wiring.addComponents]
    cases hadd : w.addPart c.label scope options c.part with
    | error e =>
      rw [hadd] at hadds
      cases hadds with
      | failed cause => exact .inl ⟨c, List.mem_cons_self, cause, rfl⟩
    | ok w₁ =>
      rw [hadd] at hadds
      simp only [ok_bind]
      cases hadds with
      | label hpart =>
        have hopen := Part.openSlots_of_kind? hpart
        rw [Component.devices_cons_label hpart]
        rcases ih h hrest with ⟨c', hc', cause, hfail⟩ | hok
        · exact .inl ⟨c', List.mem_cons_of_mem _ hc', cause, hfail⟩
        · exact .inr (by simpa [Component.ownShafts, hopen] using hok)
      | @device _ d hd hw =>
        rcases ih hw hrest with ⟨c', hc', cause, hfail⟩ | ⟨w', added, hok, hlaid, hmakes⟩
        · exact .inl ⟨c', List.mem_cons_of_mem _ hc', cause, hfail⟩
        · refine .inr ⟨w', (c.label, d) :: added, hok, ?_, ?_⟩
          · simpa [Component.ownShafts] using hlaid
          · rw [Component.devices_cons hd.kind]
            exact .cons ⟨rfl, hd⟩ (by simpa using hmakes)

end Laid

end Wiring

end DifferentialAnalyzer
