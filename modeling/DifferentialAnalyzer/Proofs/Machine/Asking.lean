import DifferentialAnalyzer.Proofs.Machine.InRange

/-! Devices that are asked again. A device that has given a shaft its rotation passes for the rest
of the tick and stays as it is, whatever else happens in it. -/

namespace DifferentialAnalyzer

namespace Tick

/-- A device is asked, or else a shaft is given a rotation on behalf of a device. -/
inductive Event where
  | ask (id : DeviceId)
  | write (id : DeviceId) (shaft : ShaftId) (value : Float)

def happen (t : Tick) : Event → Tick
  | .ask id => (t.ask id).1
  | .write id shaft value => (t.apply id (.write shaft value)).1

def through (t : Tick) (events : List Event) : Tick :=
  events.foldl happen t

section Happen

variable {t : Tick} {id : DeviceId}

theorem extends_apply (t : Tick) (id : DeviceId) (r : Resolution) :
    t.shafts.Extends (t.apply id r).1.shafts := by
  cases r with
  | idle => exact .refl _
  | unchanged x => exact .refl _
  | write x v =>
    by_cases hx : t.shafts.Ready x
    · have hb : (t.shafts.get x).ready = true := hx
      simp only [apply, ShaftState.resolve?, hb, if_true]
      exact .refl _
    · have hb : (t.shafts.get x).ready = false := by simpa [Shafts.Ready] using hx
      simp only [apply, ShaftState.resolve?, hb, Bool.false_eq_true, if_false]
      exact Shafts.extends_set hx rfl

theorem devices_apply (t : Tick) (id : DeviceId) (r : Resolution) :
    (t.apply id r).1.devices = t.devices := by
  cases r with
  | idle => rfl
  | unchanged x => rfl
  | write x v =>
    rw [apply]
    cases (t.shafts.get x).resolve? v (some id) <;> rfl

theorem ask_of_none (h : t.devices[id.index]? = none) : t.ask id = (t, none) := by
  simp only [ask, h]

theorem extends_ask (t : Tick) (id : DeviceId) : t.shafts.Extends (t.ask id).1.shafts := by
  cases hd : t.devices[id.index]? with
  | none =>
    rw [ask_of_none hd]
    exact .refl _
  | some d =>
    rw [ask_eq hd]
    cases (d.resolve id t.shafts).2 with
    | error e => exact .refl _
    | ok r =>
      exact extends_apply { t with devices := t.devices.setIfInBounds id.index _ } id r

theorem devices_ask_of_ne {other : DeviceId} (h : other ≠ id) :
    (t.ask other).1.devices[id.index]? = t.devices[id.index]? := by
  cases hd : t.devices[other.index]? with
  | none => rw [ask_of_none hd]
  | some d =>
    have hi : other.index ≠ id.index := fun he => h (congrArg Id.mk he)
    rw [ask_eq hd]
    cases (d.resolve other t.shafts).2 with
    | error e => exact Array.getElem?_setIfInBounds_ne hi
    | ok r =>
      dsimp only
      rw [devices_apply]
      exact Array.getElem?_setIfInBounds_ne hi

theorem extends_happen (t : Tick) (e : Event) : t.shafts.Extends (t.happen e).shafts := by
  cases e with
  | ask id => exact extends_ask t id
  | write id x v => exact extends_apply t id (.write x v)

theorem Fits.happen {s : Simulator} (h : Fits s t) (e : Event) : Fits s (t.happen e) := by
  cases e with
  | write id x v => exact h.apply id (.write x v)
  | ask id =>
    rw [Tick.happen]
    cases hd : t.devices[id.index]? with
    | none => rwa [ask_of_none hd]
    | some d =>
      have hfits := h.replaced hd t.shafts
      rw [ask_eq hd]
      cases (d.resolve id t.shafts).2 with
      | error e => exact hfits
      | ok r => exact hfits.apply id r

theorem Fits.through {s : Simulator} (h : Fits s t) (events : List Event) :
    Fits s (t.through events) := by
  induction events generalizing t with
  | nil => exact h
  | cons e events ih => exact ih (h.happen e)

end Happen

/-- Asked now the device gives the shaft this rotation, and stands so afterwards. -/
def Writes (t : Tick) (id : DeviceId) (x : ShaftId) (v : Float) (after : Device) : Prop :=
  ∃ d, t.devices[id.index]? = some d ∧ d.resolve id t.shafts = (after, .ok (.write x v))

/-- The device, which stands so, has given the shaft this rotation. -/
structure Drives (t : Tick) (id : DeviceId) (x : ShaftId) (v : Float) (d : Device) : Prop where
  device : t.devices[id.index]? = some d
  leadsTo : d.LeadsTo t.shafts x
  drivenBy : t.shafts.DrivenBy x id
  rotation : (t.shafts.get x).next = v

/-- The device, which stands so, has given the shaft this rotation and has nothing left to do. -/
structure Spent (t : Tick) (id : DeviceId) (x : ShaftId) (v : Float) (d : Device) : Prop where
  device : t.devices[id.index]? = some d
  drivenBy : t.shafts.DrivenBy x id
  rotation : (t.shafts.get x).next = v
  passes : ∃ r : Resolution, r.Passes ∧ d.resolve id t.shafts = (d, .ok r)
  ask : t.ask id = (t, none)

section Drives

variable {t : Tick} {id : DeviceId} {x : ShaftId} {v : Float} {d : Device}

theorem Writes.drives {s : Simulator} (h : t.Writes id x v d) (hfits : Fits s t) (hs : s.Wired) :
    (t.ask id).1.Drives id x v d := by
  obtain ⟨before, hd, hr⟩ := h
  have hanswer : (before.resolve id t.shafts).2 = .ok (.write x v) := by rw [hr]
  obtain ⟨hleads, hready⟩ := Device.leadsTo_of_resolve hanswer
  have hlt := hfits.target_lt hs hd hanswer
  have hfitting : d.fitting = before.fitting := by
    rw [← before.fitting_resolve id t.shafts, hr]
  have hask : t.ask id = (t.written id d x v, none) := by
    rw [ask_eq hd, hr]
    exact apply_write hready id d v
  rw [hask]
  refine ⟨?_, ?_, (drivenBy_written hlt).mpr (.inl ⟨rfl, rfl⟩), ?_⟩
  · simp [Tick.written, (Array.getElem?_eq_some_iff.mp hd).1]
  · exact hleads.mono hfitting fun y hy => (ready_written hlt).mpr (.inr hy)
  · rw [get_written hlt, if_pos rfl]

theorem Drives.passes (h : t.Drives id x v d) :
    ∃ r : Resolution, r.Passes ∧ d.resolve id t.shafts = (d, .ok r) :=
  Device.resolve_of_drivenBy h.leadsTo h.drivenBy

theorem Drives.ask (h : t.Drives id x v d) : t.ask id = (t, none) := by
  obtain ⟨r, hr, he⟩ := h.passes
  have hsame : t.devices.setIfInBounds id.index d = t.devices := by
    obtain ⟨hlt, rfl⟩ := Array.getElem?_eq_some_iff.mp h.device
    simp [Array.setIfInBounds, hlt]
  rw [ask_eq h.device, he]
  dsimp only
  rw [hsame]
  rcases hr with rfl | ⟨y, rfl⟩ <;> rfl

theorem Drives.happen (h : t.Drives id x v d) (e : Event) : (t.happen e).Drives id x v d := by
  have hext := extends_happen t e
  refine ⟨?_, h.leadsTo.mono rfl fun y hy => hext.ready hy, hext.drivenBy h.drivenBy, ?_⟩
  · cases e with
    | write other y w => exact (congrArg (·[id.index]?) (devices_apply t other _)).trans h.device
    | ask other =>
      by_cases he : other = id
      · subst he
        rw [Tick.happen, h.ask]
        exact h.device
      · exact (devices_ask_of_ne he).trans h.device
  · rw [hext.kept x h.drivenBy.1]
    exact h.rotation

theorem Drives.through (h : t.Drives id x v d) (events : List Event) :
    (t.through events).Drives id x v d := by
  induction events generalizing t with
  | nil => exact h
  | cons e events ih => exact ih (h.happen e)

theorem Drives.spent (h : t.Drives id x v d) : t.Spent id x v d :=
  ⟨h.device, h.drivenBy, h.rotation, h.passes, h.ask⟩

end Drives

end Tick

namespace Assembly

/-- A device of a machine that has given a shaft its rotation in a tick passes from then on and
stays as it is, whatever happens in the tick before and after. On whatever shafts a device is asked,
it gives a rotation only to one that has none. -/
theorem asked_again {a : Assembly} (ha : a.Composed) {s : Simulator} (hs : a.build = .ok s) :
    (∀ ops earlier later id x v d, ((s.after ops).start.through earlier).Writes id x v d →
      ((((s.after ops).start.through earlier).ask id).1.through later).Spent id x v d) ∧
    ∀ (d : Device) id shafts x v, (d.resolve id shafts).2 = .ok (.write x v) →
      ¬ shafts.Ready x := by
  constructor
  · intro ops earlier later id x v d hw
    have hwired := Simulator.kept_wired.after (ha.wired hs) ops
    have hfits := (Tick.fits_start (s.after ops)).through earlier
    exact ((hw.drives hfits hwired).through later).spent
  · intro d id shafts x v h
    exact (Device.leadsTo_of_resolve h).2

/-- In the second tick the integrator of the tripler stages its disk once, although it is asked
again after other shafts have got rotations. -/
theorem asked_again_tripler : ∃ (s : Simulator) (d : Device),
    (ofPieces Piece.tripler).build = .ok s ∧
    d = .integrator ⟨⟨0⟩, ⟨1⟩, ⟨3⟩, false, 0.5, 0.5, some 2.5⟩ ∧
    ((s.after [.step]).start.through [.ask ⟨0⟩]).Writes ⟨3⟩ ⟨3⟩ 2.5 d ∧
    ((((s.after [.step]).start.through [.ask ⟨0⟩]).ask ⟨3⟩).1.through
      [.ask ⟨1⟩, .write ⟨2⟩ ⟨2⟩ 7.0, .ask ⟨3⟩]).Spent ⟨3⟩ ⟨3⟩ 2.5 d := by
  obtain ⟨s, hs, hw⟩ : ∃ s, (ofPieces Piece.tripler).build = .ok s ∧
      ((s.after [.step]).start.through [.ask ⟨0⟩]).Writes ⟨3⟩ ⟨3⟩ 2.5
        (.integrator ⟨⟨0⟩, ⟨1⟩, ⟨3⟩, false, 0.5, 0.5, some 2.5⟩) :=
    ⟨_, rfl, .integrator ⟨⟨0⟩, ⟨1⟩, ⟨3⟩, false, 0.5, 0.5, none⟩, by with_unfolding_all rfl,
      by with_unfolding_all rfl⟩
  exact ⟨s, _, hs, rfl, hw, (asked_again (composed_ofPieces Piece.tripler) hs).1 _ _ _ _ _ _ _ hw⟩

end Assembly

end DifferentialAnalyzer
