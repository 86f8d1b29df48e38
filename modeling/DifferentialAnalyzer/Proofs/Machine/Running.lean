import DifferentialAnalyzer.Proofs.Machine.Answer

/-! What holds while a tick runs. Asking a device keeps `Tick.Running`, and a device that cannot do
what is open to it is `Tick.Stuck`. -/

namespace DifferentialAnalyzer

namespace Shafts

theorem get_set (shafts : Shafts) {s : ShaftId} (hs : s.index < shafts.size) (state : ShaftState)
    (x : ShaftId) : (shafts.set s state).get x = if x = s then state else shafts.get x := by
  have hi : x = s ↔ s.index = x.index := by
    cases x
    cases s
    simp [eq_comm]
  simp only [get, set, Array.getD_eq_getD_getElem?, Array.getElem?_setIfInBounds, hs, hi]
  split <;> rfl

/-- A later state of the shafts in the same tick. -/
structure Extends (a b : Shafts) : Prop where
  current : ∀ s, (b.get s).current = (a.get s).current
  kept : ∀ s, a.Ready s → b.get s = a.get s

namespace Extends

theorem refl (a : Shafts) : a.Extends a :=
  ⟨fun _ => rfl, fun _ _ => rfl⟩

theorem ready {a b : Shafts} (h : a.Extends b) {s : ShaftId} (hs : a.Ready s) : b.Ready s := by
  simpa only [Ready, h.kept s hs] using hs

theorem drivenBy {a b : Shafts} (h : a.Extends b) {s : ShaftId} {id : DeviceId}
    (hs : a.DrivenBy s id) : b.DrivenBy s id := by
  simpa only [DrivenBy, Ready, h.kept s hs.1] using hs

theorem trans {a b c : Shafts} (h : a.Extends b) (h' : b.Extends c) : a.Extends c :=
  ⟨fun s => (h'.current s).trans (h.current s),
    fun s hs => (h'.kept s (h.ready hs)).trans (h.kept s hs)⟩

end Extends

theorem extends_set {shafts : Shafts} {s : ShaftId} (hs : ¬ shafts.Ready s) {state : ShaftState}
    (hc : state.current = (shafts.get s).current) : shafts.Extends (shafts.set s state) := by
  by_cases hlt : s.index < shafts.size
  · refine ⟨fun x => ?_, fun x hx => ?_⟩
    · rw [get_set shafts hlt]
      by_cases he : x = s <;> simp [he, hc]
    · have hne : x ≠ s := fun he => hs (he ▸ hx)
      rw [get_set shafts hlt, if_neg hne]
  · rw [set, Array.setIfInBounds_eq_of_size_le (by omega)]
    exact .refl _

/-- The shaft has its rotation by a path whose needs have theirs in the same way. -/
inductive Derived (devices : Array Device) (shafts : Shafts) : ShaftId → Prop
  | intro {id : DeviceId} {d : Device} {p : Path} (hd : devices[id.index]? = some d)
      (hp : p ∈ d.paths) (hn : ∀ n ∈ p.needs, Derived devices shafts n)
      (hv : d.rotation shafts p.target = .ok (shafts.get p.target).next)
      (hs : shafts.DrivenBy p.target id) : Derived devices shafts p.target

theorem Derived.ready {devices : Array Device} {shafts : Shafts} {s : ShaftId}
    (h : Derived devices shafts s) : shafts.Ready s := by
  cases h with
  | intro hd hp hn hv hs => exact hs.1

theorem Derived.mono {devices : Array Device} {a b : Shafts} (hd : ∀ d ∈ devices, d.Distinct)
    (h : a.Extends b) {s : ShaftId} (hs : Derived devices a s) : Derived devices b s := by
  induction hs with
  | @intro id d p hm hp hn hv hs ih =>
    refine .intro hm hp ih ?_ (h.drivenBy hs)
    rw [h.kept _ hs.1, ← hv]
    exact Device.rotation_congr (hd d (Array.mem_of_getElem? hm)) hp
      (fun n hn' => by rw [h.kept n (hn n hn').ready]) h.current

end Shafts

/-- Nothing is staged, and a recorded level is right. -/
def Device.AtRest (d : Device) : Prop :=
  d.rollback = d ∧ d.LevelSound

namespace Simulator

/-- A machine between two ticks. -/
structure AtRest (s : Simulator) : Prop where
  describes : s.topology.Describes (s.devices.toList.map Device.fitting)
  size : s.shafts.size = s.topology.shafts.size
  shafts : ∀ x ∈ s.shafts, x = .ofRotation x.current
  devices : ∀ d ∈ s.devices, d.AtRest

def start (s : Simulator) : Tick :=
  ⟨s.devices, s.shafts, []⟩

theorem AtRest.get_eq {s : Simulator} (h : s.AtRest) (x : ShaftId) :
    s.shafts.get x = .ofRotation (s.shafts.get x).current := by
  rw [Shafts.get, Array.getD_eq_getD_getElem?]
  cases hx : s.shafts[x.index]? with
  | none => rfl
  | some state => exact h.shafts state (Array.mem_of_getElem? hx)

theorem AtRest.not_ready {s : Simulator} (h : s.AtRest) (x : ShaftId) : ¬ s.shafts.Ready x := by
  rw [Shafts.Ready, h.get_eq x]
  simp [ShaftState.ofRotation]

theorem fitting_mem {s : Simulator} {d : Device} (hd : d ∈ s.devices) :
    d.fitting ∈ s.devices.toList.map Device.fitting :=
  List.mem_map_of_mem (Array.mem_toList_iff.mpr hd)

theorem AtRest.distinct {s : Simulator} (h : s.AtRest) {d : Device} (hd : d ∈ s.devices) :
    d.Distinct :=
  h.describes.accepted.distinct _ (fitting_mem hd)

theorem AtRest.target_lt {s : Simulator} (h : s.AtRest) {d : Device} (hd : d ∈ s.devices)
    {p : Path} (hp : p ∈ d.paths) : p.target.index < s.shafts.size := by
  obtain ⟨c, hc, he⟩ := List.mem_map.mp (Device.target_mem_connections hp)
  rw [h.size, ← he]
  exact h.describes.accepted.bounded _ (fitting_mem hd) c hc

end Simulator

/-- What became of a device in a tick. -/
structure Device.Stands (d : Device) (id : DeviceId) (shafts : Shafts) (now : Device) : Prop where
  level : now.LevelSound
  moved : (∃ x, shafts.DrivenBy x id) → now.uncached = (d.fired shafts).uncached
  unmoved : (∀ x, ¬ shafts.DrivenBy x id) → now.uncached = d.uncached

theorem Device.Stands.bare {d now : Device} {id : DeviceId} {shafts : Shafts}
    (h : d.Stands id shafts now) : now.bare = d.bare := by
  by_cases hx : ∃ x, shafts.DrivenBy x id
  · rw [← bare_uncached, h.moved hx, bare_uncached, bare_fired]
  · rw [← bare_uncached, h.unmoved (not_exists.mp hx), bare_uncached]

namespace Tick

/-- A tick of `s` that runs. -/
structure Running (s : Simulator) (t : Tick) : Prop where
  size : t.shafts.size = s.shafts.size
  count : t.devices.size = s.devices.size
  stands : ∀ (i : Nat) (d : Device), s.devices[i]? = some d →
    ∃ now, t.devices[i]? = some now ∧ d.Stands ⟨i⟩ t.shafts now
  current : ∀ x, (t.shafts.get x).current = (s.shafts.get x).current
  untouched : ∀ x, ¬ t.shafts.Ready x → t.shafts.get x = s.shafts.get x
  derived : ∀ x, t.shafts.Ready x → t.shafts.Derived s.devices x
  drivesOne : ∀ x y id, t.shafts.DrivenBy x id → t.shafts.DrivenBy y id → x = y
  waiting : ∀ x ∈ t.waiting, t.shafts.Ready x
  nodup : t.waiting.Nodup

theorem running_start {s : Simulator} (h : s.AtRest) : Running s s.start where
  size := rfl
  count := rfl
  stands i d hd := ⟨d, hd, (h.devices d (Array.mem_of_getElem? hd)).2,
    fun ⟨x, hx⟩ => absurd hx.1 (h.not_ready x), fun _ => rfl⟩
  current _ := rfl
  untouched _ _ := rfl
  derived x hx := absurd hx (h.not_ready x)
  drivesOne x _ _ hx := absurd hx.1 (h.not_ready x)
  waiting := by simp [Simulator.start]
  nodup := by simp [Simulator.start]

theorem Running.attributed {s : Simulator} {t : Tick} (h : Running s t) :
    t.shafts.Attributed := by
  intro x hx
  cases h.derived x hx with
  | @intro id d p hd hp hn hv hs => exact ⟨id, hs⟩

/-- The device with this id, asked while all its targets are resolved, has an open path. -/
def MayAsk (s : Simulator) (t : Tick) (id : DeviceId) : Prop :=
  ∀ d, s.devices[id.index]? = some d → (∀ p ∈ d.paths, t.shafts.Ready p.target) →
    d.Enabled t.shafts.Ready

/-- The error of a device that cannot do what is open to it: its curve fails there, or other
devices have resolved all its targets. -/
inductive Stuck (s : Simulator) (t : Tick) : MachineError → Prop
  | expression {id : DeviceId} {d : Device} {p : Path} {e : ExprError}
      (hd : s.devices[id.index]? = some d) (hp : p ∈ d.paths) (ho : p.Open t.shafts.Ready)
      (ht : ¬ t.shafts.Ready p.target) (hv : d.rotation t.shafts p.target = .error e) :
      Stuck s t (.expression id e)
  | duplicate {id : DeviceId} {d : Device} {p : Path} (hd : s.devices[id.index]? = some d)
      (hp : p ∈ d.paths) (he : d.Enabled t.shafts.Ready)
      (ht : ∀ q ∈ d.paths, t.shafts.Ready q.target ∧ ¬ t.shafts.DrivenBy q.target id) :
      Stuck s t (.duplicateResolution p.target id)

theorem Running.path {s : Simulator} {t : Tick} (h : Running s t) {x : ShaftId} {id : DeviceId}
    (hx : t.shafts.DrivenBy x id) : ∃ d p, s.devices[id.index]? = some d ∧ p ∈ d.paths ∧
      p.target = x ∧ p.Open t.shafts.Ready ∧
      d.rotation t.shafts x = .ok (t.shafts.get x).next := by
  cases h.derived x hx.1 with
  | @intro id' d p hd hp hn hv hs =>
    obtain rfl : id' = id := Option.some.inj (hs.2.symm.trans hx.2)
    exact ⟨d, p, hd, hp, rfl, fun n hm => (hn n hm).ready, hv⟩

theorem Running.used {s : Simulator} {t : Tick} (h : Running s t) {id : DeviceId} {d : Device}
    (hd : s.devices[id.index]? = some d) {x : ShaftId} (hx : t.shafts.DrivenBy x id) :
    ∃ p ∈ d.paths, p.target = x ∧ p.Open t.shafts.Ready ∧
      d.rotation t.shafts x = .ok (t.shafts.get x).next := by
  obtain ⟨e, p, he, hp, ht, ho, hv⟩ := h.path hx
  obtain rfl : e = d := Option.some.inj (he.symm.trans hd)
  exact ⟨p, hp, ht, ho, hv⟩

theorem Running.not_drivenBy {s : Simulator} {t : Tick} (h : Running s t) {id : DeviceId}
    {d : Device} {p : Path} (hd : s.devices[id.index]? = some d) (hp : p ∈ d.paths)
    (ht : ¬ t.shafts.Ready p.target) (y : ShaftId) : ¬ t.shafts.DrivenBy y id := by
  intro hy
  obtain ⟨q, hq, rfl, ho, -⟩ := h.used hd hy
  -- Once a path has been used, all that the device can resolve is resolved.
  rcases Device.target_eq_or_mem hq hp with hh | hh
  · exact ht (hh ▸ hy.1)
  · exact ht (ho _ hh)

theorem Running.getElem?_eq_none {s : Simulator} {t : Tick} (h : Running s t) {i : Nat}
    (hd : s.devices[i]? = none) : t.devices[i]? = none := by
  rw [Array.getElem?_eq_none_iff, h.count]
  exact Array.getElem?_eq_none_iff.mp hd

/-- The tick after a device has given a shaft its rotation. -/
def written (t : Tick) (id : DeviceId) (after : Device) (x : ShaftId) (v : Float) : Tick :=
  ⟨t.devices.setIfInBounds id.index after,
    t.shafts.set x ⟨(t.shafts.get x).current, v, true, some id⟩, x :: t.waiting⟩

section Written

variable {t : Tick} {id : DeviceId} {after : Device} {x : ShaftId} {v : Float}

theorem get_written (hx : x.index < t.shafts.size) (y : ShaftId) :
    (t.written id after x v).shafts.get y =
      if y = x then ⟨(t.shafts.get x).current, v, true, some id⟩ else t.shafts.get y :=
  Shafts.get_set t.shafts hx _ y

theorem ready_written (hx : x.index < t.shafts.size) {y : ShaftId} :
    (t.written id after x v).shafts.Ready y ↔ y = x ∨ t.shafts.Ready y := by
  rw [Shafts.Ready, get_written hx]
  by_cases hy : y = x <;> simp [hy, Shafts.Ready]

theorem drivenBy_written (hx : x.index < t.shafts.size) {y : ShaftId} {i : DeviceId} :
    (t.written id after x v).shafts.DrivenBy y i ↔
      y = x ∧ i = id ∨ y ≠ x ∧ t.shafts.DrivenBy y i := by
  rw [Shafts.DrivenBy, Shafts.Ready, get_written hx]
  by_cases hy : y = x
  · simp [hy, @eq_comm _ id i]
  · simp [hy, Shafts.DrivenBy, Shafts.Ready]

theorem extends_written (ht : ¬ t.shafts.Ready x) :
    t.shafts.Extends (t.written id after x v).shafts :=
  Shafts.extends_set ht rfl

end Written

theorem Running.stands_written {s : Simulator} {t : Tick} (h : Running s t) {x : ShaftId}
    (hx : x.index < t.shafts.size) (ht : ¬ t.shafts.Ready x) {id i : DeviceId} (hi : i ≠ id)
    {e now : Device} (he : s.devices[i.index]? = some e) (hst : e.Stands i t.shafts now)
    (after : Device) (v : Float) : e.Stands i (t.written id after x v).shafts now := by
  have hext : t.shafts.Extends (t.written id after x v).shafts := extends_written ht
  refine ⟨hst.level, ?_, fun hh => hst.unmoved fun y hy => hh y (hext.drivenBy hy)⟩
  rintro ⟨y, hy⟩
  rcases (drivenBy_written hx).mp hy with ⟨-, hh⟩ | ⟨-, hy⟩
  · exact absurd hh hi
  · obtain ⟨q, hq, -, ho, -⟩ := h.used he hy
    rw [hst.moved ⟨y, hy⟩,
      Device.fired_congr hq (fun n hn => by rw [hext.kept n (ho n hn)]) hext.current]

theorem Running.written {s : Simulator} {t : Tick} (h : Running s t) (hs : s.AtRest)
    {id : DeviceId} {d after : Device} {p : Path} {v : Float}
    (hd : s.devices[id.index]? = some d) (hp : p ∈ d.paths) (ho : p.Open t.shafts.Ready)
    (ht : ¬ t.shafts.Ready p.target) (hv : d.rotation t.shafts p.target = .ok v)
    (ha : after.uncached = (d.fired t.shafts).uncached) (hl : after.LevelSound) :
    Running s (t.written id after p.target v) := by
  have hx : p.target.index < t.shafts.size :=
    h.size ▸ hs.target_lt (Array.mem_of_getElem? hd) hp
  have hext : t.shafts.Extends (t.written id after p.target v).shafts := extends_written ht
  have hself : (t.written id after p.target v).shafts.DrivenBy p.target id :=
    (drivenBy_written hx).mpr (.inl ⟨rfl, rfl⟩)
  have hmono : ∀ y, t.shafts.Ready y →
      (t.written id after p.target v).shafts.Derived s.devices y :=
    fun y hy => (h.derived y hy).mono (fun _ => hs.distinct) hext
  have hnot := h.not_drivenBy hd hp ht
  refine ⟨?_, ?_, ?_, ?_, ?_, ?_, ?_, ?_, ?_⟩
  · simpa [Tick.written, Shafts.set] using h.size
  · simpa [Tick.written] using h.count
  · intro i e he
    obtain ⟨now, hnow, hst⟩ := h.stands i e he
    by_cases hi : id.index = i
    · subst hi
      obtain rfl : e = d := Option.some.inj (he.symm.trans hd)
      have hlt := (Array.getElem?_eq_some_iff.mp hnow).1
      refine ⟨after, by simp [Tick.written, hlt], hl, fun _ => ?_, fun hh => absurd hself (hh _)⟩
      rw [ha, Device.fired_congr hp (fun n hn => by rw [hext.kept n (ho n hn)]) hext.current]
    · have hne : (⟨i⟩ : DeviceId) ≠ id := fun hh => hi (congrArg Id.index hh).symm
      exact ⟨now, by simp [Tick.written, hi, hnow], h.stands_written hx ht hne he hst after v⟩
  · intro y
    rw [hext.current, h.current]
  · intro y hy
    rw [ready_written hx, not_or] at hy
    rw [get_written hx, if_neg hy.1, h.untouched y hy.2]
  · intro y hy
    rcases (ready_written hx).mp hy with rfl | hy
    · refine .intro hd hp (fun n hn => hmono n (ho n hn)) ?_ hself
      rw [Device.rotation_congr (hs.distinct (Array.mem_of_getElem? hd)) hp
        (fun n hn => by rw [hext.kept n (ho n hn)]) hext.current, hv, get_written hx, if_pos rfl]
    · exact hmono y hy
  · intro y z i hy hz
    rcases (drivenBy_written hx).mp hy with ⟨hy, hi⟩ | ⟨-, hy⟩ <;>
      rcases (drivenBy_written hx).mp hz with ⟨hz, hj⟩ | ⟨-, hz⟩
    · exact hy.trans hz.symm
    · exact absurd (hi ▸ hz) (hnot z)
    · exact absurd (hj ▸ hy) (hnot y)
    · exact h.drivesOne y z i hy hz
  · intro y hy
    rw [ready_written hx]
    exact (List.mem_cons.mp hy).imp_right (h.waiting y)
  · exact List.nodup_cons.mpr ⟨fun hm => ht (h.waiting _ hm), h.nodup⟩

theorem Running.replaced {s : Simulator} {t : Tick} (h : Running s t) {id : DeviceId}
    {d after : Device} (hd : s.devices[id.index]? = some d)
    (ha : d.Stands id t.shafts after) :
    Running s { t with devices := t.devices.setIfInBounds id.index after } := by
  refine ⟨h.size, by simpa using h.count, fun i e he => ?_, h.current, h.untouched, h.derived,
    h.drivesOne, h.waiting, h.nodup⟩
  obtain ⟨now, hnow, hst⟩ := h.stands i e he
  by_cases hi : id.index = i
  · subst hi
    obtain rfl : e = d := Option.some.inj (he.symm.trans hd)
    exact ⟨after, by simp [(Array.getElem?_eq_some_iff.mp hnow).1], ha⟩
  · exact ⟨now, by simp [hi, hnow], hst⟩

/-- What asking a device does to a running tick. -/
inductive Asked (s : Simulator) (t : Tick) (id : DeviceId) :
    Tick × Option MachineError → Prop
  | wrote {d : Device} {p : Path} {t' : Tick} (hd : s.devices[id.index]? = some d)
      (hp : p ∈ d.paths) (ht : ¬ t.shafts.Ready p.target)
      (hext : t.shafts.Extends t'.shafts) (hdriven : t'.shafts.DrivenBy p.target id)
      (hready : ∀ x, t'.shafts.Ready x ↔ x = p.target ∨ t.shafts.Ready x)
      (hwaiting : t'.waiting = p.target :: t.waiting) : Asked s t id (t', none)
  | passed {t' : Tick} (hshafts : t'.shafts = t.shafts) (hwaiting : t'.waiting = t.waiting)
      (hserved : ∀ d, s.devices[id.index]? = some d → d.Enabled t.shafts.Ready →
        ∃ x, t.shafts.DrivenBy x id) : Asked s t id (t', none)
  | failed {t' : Tick} {e : MachineError} (hshafts : t'.shafts = t.shafts)
      (hstuck : Stuck s t e) : Asked s t id (t', some e)

theorem apply_write {t : Tick} {x : ShaftId} (ht : ¬ t.shafts.Ready x) (id : DeviceId)
    (after : Device) (v : Float) :
    apply { t with devices := t.devices.setIfInBounds id.index after } id (.write x v) =
      (t.written id after x v, none) := by
  have hb : (t.shafts.get x).ready = false := by simpa [Shafts.Ready] using ht
  simp [apply, ShaftState.resolve?, hb, Tick.written]

theorem apply_of_ne_write {r : Resolution} (hr : ∀ x v, r ≠ .write x v) (t : Tick)
    (id : DeviceId) : apply t id r = (t, none) := by
  cases r with
  | idle => rfl
  | write x v => exact absurd rfl (hr x v)
  | unchanged x => rfl

theorem ask_eq {t : Tick} {id : DeviceId} {d : Device} (hd : t.devices[id.index]? = some d) :
    t.ask id = match (d.resolve id t.shafts).2 with
      | .error e => ({ t with
          devices := t.devices.setIfInBounds id.index (d.resolve id t.shafts).1 }, some e)
      | .ok r => apply { t with
          devices := t.devices.setIfInBounds id.index (d.resolve id t.shafts).1 } id r := by
  cases hr : d.resolve id t.shafts with
  | mk after answer => cases answer <;> simp [Tick.ask, hd, hr]

/-- Goes on unless there was an error. -/
def andThen (next : Tick → Tick × Option MachineError) :
    Tick × Option MachineError → Tick × Option MachineError
  | (t, none) => next t
  | failed => failed

theorem askAll_cons (t : Tick) (id : DeviceId) (ids : List DeviceId) :
    t.askAll (id :: ids) = andThen (·.askAll ids) (t.ask id) := rfl

theorem drain_cons (topology : Topology) (count : Nat) {t : Tick} {x : ShaftId}
    {rest : List ShaftId} (hw : t.waiting = x :: rest) : drain topology (count + 1) t =
      andThen (drain topology count)
        (askAll { t with waiting := rest } (topology.reactive x)) := by
  simp only [drain, hw]
  rfl

theorem propagate_eq (topology : Topology) (t : Tick) : propagate topology t =
    andThen (fun t' => drain topology t'.shafts.size t') (t.ask topology.motor) := rfl

theorem Running.ask {s : Simulator} {t : Tick} (h : Running s t) (hs : s.AtRest)
    {id : DeviceId} (hid : MayAsk s t id) :
    Running s (t.ask id).1 ∧ Asked s t id (t.ask id) := by
  cases hd : s.devices[id.index]? with
  | none =>
    have he : t.ask id = (t, none) := by simp [Tick.ask, h.getElem?_eq_none hd]
    rw [he]
    exact ⟨h, .passed rfl rfl (by simp [hd])⟩
  | some d =>
    have hmem := Array.mem_of_getElem? hd
    obtain ⟨now, hnow, hst⟩ := h.stands id.index d hd
    have hpaths := Device.paths_eq_of_bare hst.bare
    have hrot := Device.rotation_eq_of_bare hst.bare t.shafts
    have hdist : now.Distinct := by
      rw [Device.Distinct, Device.fitting_eq_of_bare hst.bare]
      exact hs.distinct hmem
    have hans : now.Answers id t.shafts (now.resolve id t.shafts) :=
      Device.resolve_answers h.attributed hdist hst.level
    rw [ask_eq hnow]
    revert hans
    generalize now.resolve id t.shafts = answer
    intro hans
    cases hans with
    | @write p v after hp ho ht hv ha hl =>
      rw [hpaths] at hp
      rw [hrot] at hv
      rw [Device.fired_eq_of_bare hst.bare] at ha
      have hx : p.target.index < t.shafts.size := h.size ▸ hs.target_lt hmem hp
      simp only [apply_write ht]
      exact ⟨h.written hs hd hp ho ht hv ha hl,
        .wrote hd hp ht (extends_written ht) ((drivenBy_written hx).mpr (.inl ⟨rfl, rfl⟩))
          (fun _ => ready_written hx) rfl⟩
    | @fail p e after hp ho ht hv ha hl =>
      rw [hpaths] at hp
      rw [hrot] at hv
      have hstands : d.Stands id t.shafts after :=
        ⟨hl, fun hh => ha.trans (hst.moved hh), fun hh => ha.trans (hst.unmoved hh)⟩
      exact ⟨h.replaced hd hstands,
        .failed rfl (.expression hd hp ho ht hv)⟩
    | pass ha hen =>
      simp only [apply_of_ne_write ha]
      refine ⟨h.replaced hd hst, .passed rfl rfl fun e he hop => ?_⟩
      obtain rfl : e = d := Option.some.inj (he.symm.trans hd)
      rw [Device.Enabled, hpaths] at hen
      obtain ⟨p, -, hdr⟩ := hen hop
      exact ⟨p.target, hdr⟩
    | conflict hx hall =>
      rw [hpaths] at hx hall
      obtain ⟨p, hp, rfl⟩ := hx
      exact ⟨h.replaced hd hst,
        .failed rfl (.duplicate hd hp (hid d hd fun q hq => (hall q hq).1) hall)⟩

theorem Stuck.congr {s : Simulator} {t t' : Tick} {e : MachineError}
    (he : t'.shafts = t.shafts) (h : Stuck s t e) : Stuck s t' e := by
  cases h with
  | expression hd hp ho ht hv => exact .expression hd hp (he ▸ ho) (he ▸ ht) (he ▸ hv)
  | duplicate hd hp hen ht => exact .duplicate hd hp (he ▸ hen) (he ▸ ht)

theorem Asked.extends {s : Simulator} {t : Tick} {id : DeviceId} {r : Tick × Option MachineError}
    (h : Asked s t id r) : t.shafts.Extends r.1.shafts := by
  cases h with
  | wrote hd hp ht hext hdriven hready hwaiting => exact hext
  | passed hshafts hwaiting hserved => exact hshafts ▸ .refl _
  | failed hshafts hstuck => exact hshafts ▸ .refl _

theorem mayAsk_of_reactive {s : Simulator} (hs : s.AtRest) {t : Tick} {x : ShaftId}
    (hx : t.shafts.Ready x) {id : DeviceId} (hid : id ∈ s.topology.reactive x) :
    MayAsk s t id := by
  intro d hd ht
  obtain ⟨f, hf, hr⟩ := (hs.describes.reactive x id).mp hid
  obtain rfl : d.fitting = f := by simpa [hd] using hf
  exact Device.enabled_of_mem_reacting hr hx ht

theorem mayAsk_motor {s : Simulator} (hs : s.AtRest) (t : Tick) : MayAsk s t s.topology.motor := by
  intro d hd _
  have hk : d.kind = .motor := by simpa [hd, Device.fitting] using hs.describes.motor
  obtain ⟨p, hp, hn⟩ := Device.kind_eq_motor_iff.mp hk
  exact ⟨p, hp, by simp [Path.Open, hn]⟩

end Tick

end DifferentialAnalyzer
