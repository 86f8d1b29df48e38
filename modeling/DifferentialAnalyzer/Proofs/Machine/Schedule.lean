import DifferentialAnalyzer.Proofs.Machine.Running
import Mathlib.Data.Finset.Card

/-! The orders in which a tick can take up shafts and ask devices. In all of them a tick that ends
without an error has served every device, and the loop of the machine is one of them. -/

namespace DifferentialAnalyzer

namespace Tick

/-- Every device outside `pending` that the shafts taken up so far enable has resolved a shaft. -/
def Served (s : Simulator) (t : Tick) (pending : List DeviceId) : Prop :=
  ∀ (i : DeviceId) (d : Device), s.devices[i.index]? = some d → i ∉ pending →
    d.Enabled (fun x => t.shafts.Ready x ∧ x ∉ t.waiting) → ∃ x, t.shafts.DrivenBy x i

theorem Served.ask {s : Simulator} {t t' : Tick} {id : DeviceId} {pending : List DeviceId}
    (h : Served s t (id :: pending)) (ha : Asked s t id (t', none)) : Served s t' pending := by
  intro i d hd hi hen
  cases ha with
  | wrote hd' hp ht hext hdriven hready hwaiting =>
    by_cases hid : i = id
    · exact ⟨_, hid ▸ hdriven⟩
    · obtain ⟨p, hp, ho⟩ := hen
      have hopen : p.Open fun x => t.shafts.Ready x ∧ x ∉ t.waiting := by
        intro n hn
        obtain ⟨hr, hw⟩ := ho n hn
        rw [hwaiting, List.mem_cons, not_or] at hw
        exact ⟨((hready n).mp hr).resolve_left hw.1, hw.2⟩
      obtain ⟨x, hx⟩ := h i d hd (by simp [hid, hi]) ⟨p, hp, hopen⟩
      exact ⟨x, hext.drivenBy hx⟩
  | passed hshafts hwaiting hserved =>
    rw [hshafts, hwaiting] at hen
    rw [hshafts]
    by_cases hid : i = id
    · subst hid
      obtain ⟨p, hp, ho⟩ := hen
      exact hserved d hd ⟨p, hp, fun n hn => (ho n hn).1⟩
    · exact h i d hd (by simp [hid, hi]) hen

/-- Shafts that wait to be taken up, and those that may still come to wait. -/
def load (t : Tick) : Nat :=
  t.waiting.length + ((Finset.range t.shafts.size).filter fun i => ¬ t.shafts.Ready ⟨i⟩).card

/-- A shaft that gets its rotation comes to wait. -/
theorem load_eq_of_ready {t t' : Tick} {x : ShaftId} (hx : x.index < t.shafts.size)
    (hsize : t'.shafts.size = t.shafts.size) (ht : ¬ t.shafts.Ready x)
    (hready : ∀ y, t'.shafts.Ready y ↔ y = x ∨ t.shafts.Ready y)
    (hwaiting : t'.waiting = x :: t.waiting) : t'.load = t.load := by
  have herase : ((Finset.range t.shafts.size).filter fun i => ¬ t'.shafts.Ready ⟨i⟩) =
      ((Finset.range t.shafts.size).filter fun i => ¬ t.shafts.Ready ⟨i⟩).erase x.index := by
    ext i
    have hi : (⟨i⟩ : ShaftId) = x ↔ i = x.index := by
      obtain ⟨j⟩ := x
      simp
    simp only [Finset.mem_filter, Finset.mem_range, Finset.mem_erase, hready, hi, not_or]
    tauto
  have hm : x.index ∈ (Finset.range t.shafts.size).filter fun i => ¬ t.shafts.Ready ⟨i⟩ :=
    Finset.mem_filter.mpr ⟨Finset.mem_range.mpr hx, ht⟩
  have hpos := Finset.card_pos.mpr ⟨_, hm⟩
  rw [load, load, hsize, herase, hwaiting, List.length_cons, Finset.card_erase_of_mem hm]
  omega

theorem Asked.load_eq {s : Simulator} {t t' : Tick} {id : DeviceId} (h : Running s t)
    (h' : Running s t') (hs : s.AtRest) (ha : Asked s t id (t', none)) : t'.load = t.load := by
  cases ha with
  | wrote hd hp ht hext hdriven hready hwaiting =>
    exact load_eq_of_ready (h.size ▸ hs.target_lt (Array.mem_of_getElem? hd) hp)
      (h'.size.trans h.size.symm) ht hready hwaiting
  | passed hshafts hwaiting hserved => rw [load, load, hshafts, hwaiting]

theorem Running.askAll {s : Simulator} (hs : s.AtRest) {ids : List DeviceId} {t : Tick}
    (h : Running s t) {x : ShaftId} (hx : t.shafts.Ready x)
    (hids : ∀ id ∈ ids, id ∈ s.topology.reactive x) (hserved : Served s t ids) :
    Running s (t.askAll ids).1 ∧
      ((t.askAll ids).2 = none → Served s (t.askAll ids).1 [] ∧ (t.askAll ids).1.load = t.load) ∧
      ∀ e, (t.askAll ids).2 = some e → Stuck s (t.askAll ids).1 e := by
  induction ids generalizing t with
  | nil => exact ⟨h, fun _ => ⟨hserved, rfl⟩, by simp [Tick.askAll]⟩
  | cons id ids ih =>
    obtain ⟨hr, ha⟩ := h.ask hs (mayAsk_of_reactive hs hx (hids id (by simp)))
    cases he : t.ask id with
    | mk t' err =>
      rw [he] at hr ha
      cases err with
      | none =>
        have heq : t.askAll (id :: ids) = t'.askAll ids := by simp [Tick.askAll, he]
        obtain ⟨h₁, h₂, h₃⟩ := ih hr (ha.extends.ready hx) (fun i hi => hids i (by simp [hi]))
          (hserved.ask ha)
        rw [heq]
        refine ⟨h₁, fun hn => ⟨(h₂ hn).1, ?_⟩, h₃⟩
        rw [(h₂ hn).2, ha.load_eq h hr hs]
      | some e =>
        have heq : t.askAll (id :: ids) = (t', some e) := by simp [Tick.askAll, he]
        rw [heq]
        refine ⟨hr, by simp, fun e' he' => ?_⟩
        obtain rfl := Option.some.inj he'
        cases ha with
        | failed hshafts hstuck => exact hstuck.congr hshafts

/-- Runs of a tick from a state to its end in which any waiting shaft is taken up next, and the
devices that react to it are asked in any order. -/
inductive Plays (topology : Topology) : Tick → Tick × Option MachineError → Prop
  | rest {t : Tick} (ht : t.waiting = []) : Plays topology t (t, none)
  | take {t t' : Tick} {x : ShaftId} {ids : List DeviceId} {r : Tick × Option MachineError}
      (hx : x ∈ t.waiting) (hids : ids.Perm (topology.reactive x))
      (ha : askAll { t with waiting := t.waiting.erase x } ids = (t', none))
      (hr : Plays topology t' r) : Plays topology t r
  | fail {t t' : Tick} {x : ShaftId} {ids : List DeviceId} {e : MachineError}
      (hx : x ∈ t.waiting) (hids : ids.Perm (topology.reactive x))
      (ha : askAll { t with waiting := t.waiting.erase x } ids = (t', some e)) :
      Plays topology t (t', some e)

/-- How a tick has ended: without an error every enabled device has resolved a shaft. -/
structure Ended (s : Simulator) (r : Tick × Option MachineError) : Prop where
  running : Running s r.1
  served : r.2 = none → ∀ (i : DeviceId) (d : Device), s.devices[i.index]? = some d →
    d.Enabled r.1.shafts.Ready → ∃ x, r.1.shafts.DrivenBy x i
  stuck : ∀ e, r.2 = some e → Stuck s r.1 e

theorem Ended.drives {s : Simulator} {r : Tick × Option MachineError} (h : Ended s r)
    (hok : r.2 = none) {id : DeviceId} {d : Device} (hd : s.devices[id.index]? = some d)
    (he : d.Enabled r.1.shafts.Ready) : ∃ q ∈ d.paths, r.1.shafts.DrivenBy q.target id ∧
      q.Open r.1.shafts.Ready ∧
      d.rotation r.1.shafts q.target = .ok (r.1.shafts.get q.target).next := by
  obtain ⟨x, hx⟩ := h.served hok id d hd he
  obtain ⟨q, hq, rfl, ho, hv⟩ := h.running.used hd hx
  exact ⟨q, hq, hx, ho, hv⟩

theorem Running.taken {s : Simulator} {t : Tick} (h : Running s t) (x : ShaftId) :
    Running s { t with waiting := t.waiting.erase x } :=
  ⟨h.size, h.count, h.stands, h.current, h.untouched, h.derived, h.drivesOne,
    fun y hy => h.waiting y (List.mem_of_mem_erase hy), h.nodup.erase x⟩

theorem Served.taken {s : Simulator} (hs : s.AtRest) {t : Tick} (h : Served s t [])
    (hr : Running s t) (x : ShaftId) {ids : List DeviceId}
    (hids : ids.Perm (s.topology.reactive x)) :
    Served s { t with waiting := t.waiting.erase x } ids := by
  rintro i d hd hi ⟨p, hp, ho⟩
  refine h i d hd (by simp) ⟨p, hp, fun n hn => ?_⟩
  obtain ⟨hready, hw⟩ := ho n hn
  -- A device that is not to be asked does not react to `x`, so that its path does not need `x`.
  have hne : n ≠ x := by
    rintro rfl
    refine hi (hids.mem_iff.mpr ((hs.describes.reactive n i).mpr ⟨d.fitting, ?_, ?_⟩))
    · simp [hd]
    · exact Device.mem_reacting hp hn
  exact ⟨hready, fun hm => hw ((hr.nodup.mem_erase_iff).mpr ⟨hne, hm⟩)⟩

theorem Plays.ended {s : Simulator} (hs : s.AtRest) {t : Tick} {r : Tick × Option MachineError}
    (hp : Plays s.topology t r) (h : Running s t) (hserved : Served s t []) : Ended s r := by
  induction hp with
  | @rest t ht =>
    refine ⟨h, fun _ i d hd hen => hserved i d hd (by simp) ?_, by simp⟩
    simpa [ht] using hen
  | @take t t' x ids r hx hids ha hr ih =>
    obtain ⟨h₁, h₂, -⟩ := (h.taken x).askAll hs (h.waiting x hx)
      (fun i hi => hids.mem_iff.mp hi) (hserved.taken hs h x hids)
    rw [ha] at h₁ h₂
    exact ih h₁ (h₂ rfl).1
  | @fail t t' x ids e hx hids ha =>
    obtain ⟨h₁, -, h₃⟩ := (h.taken x).askAll hs (h.waiting x hx)
      (fun i hi => hids.mem_iff.mp hi) (hserved.taken hs h x hids)
    rw [ha] at h₁ h₃
    exact ⟨h₁, by simp, h₃⟩

/-- With as many takings as the load allows, the loop reaches its end. -/
theorem drain_plays {s : Simulator} (hs : s.AtRest) {count : Nat} {t : Tick} (h : Running s t)
    (hserved : Served s t []) (hcount : t.load ≤ count) :
    Plays s.topology t (drain s.topology count t) := by
  induction count generalizing t with
  | zero =>
    have hw : t.waiting = [] := by
      rw [load] at hcount
      exact List.length_eq_zero_iff.mp (by omega)
    exact .rest hw
  | succ count ih =>
    cases hw : t.waiting with
    | nil =>
      have he : drain s.topology (count + 1) t = (t, none) := by simp [drain, hw]
      rw [he]
      exact .rest hw
    | cons x rest =>
      have hx : x ∈ t.waiting := by simp [hw]
      have herase : t.waiting.erase x = rest := by simp [hw]
      obtain ⟨h₁, h₂, -⟩ := (h.taken x).askAll hs (h.waiting x hx) (fun _ hi => hi)
        (hserved.taken hs h x (.refl _))
      rw [herase] at h₁ h₂
      cases ha : askAll { t with waiting := rest } (s.topology.reactive x) with
      | mk t' err =>
        rw [ha] at h₁ h₂
        cases err with
        | some e =>
          have he : drain s.topology (count + 1) t = (t', some e) := by simp [drain, hw, ha]
          rw [he]
          exact .fail hx (.refl _) (by rw [herase, ha])
        | none =>
          have he : drain s.topology (count + 1) t = drain s.topology count t' := by
            simp [drain, hw, ha]
          -- Asking leaves the load as it is, so that only the taking counts.
          have hload := (h₂ rfl).2
          rw [he]
          refine .take hx (.refl _) (by rw [herase, ha]) (ih h₁ (h₂ rfl).1 ?_)
          simp only [load, hw, List.length_cons] at hcount hload ⊢
          omega

end Tick

namespace Simulator

/-- The runs of the next tick in which the motor is asked first. -/
def Scheduled (s : Simulator) (r : Tick × Option MachineError) : Prop :=
  match s.start.ask s.topology.motor with
  | (t, none) => Tick.Plays s.topology t r
  | failed => r = failed

/-- The run of the next tick that takes up the latest shaft first. -/
def propagated (s : Simulator) : Tick × Option MachineError :=
  Tick.propagate s.topology s.start

theorem served_start {s : Simulator} (hs : s.AtRest) :
    Tick.Served s s.start [s.topology.motor] := by
  rintro i d hd hi ⟨p, hp, ho⟩
  have hn : p.needs = [] := by
    apply List.eq_nil_iff_forall_not_mem.mpr
    exact fun n hn => hs.not_ready n (ho n hn).1
  have hk : d.kind = .motor := Device.kind_eq_motor_iff.mpr ⟨p, hp, hn⟩
  have hm := hs.describes.onlyMotor i.index d.fitting (by simp [hd]) hk
  exact absurd (List.mem_singleton.mpr (congrArg Id.mk hm)) hi

theorem Scheduled.ended {s : Simulator} (hs : s.AtRest) {r : Tick × Option MachineError}
    (h : s.Scheduled r) : Tick.Ended s r := by
  obtain ⟨hr, ha⟩ := (Tick.running_start hs).ask hs (Tick.mayAsk_motor hs s.start)
  have hserved := served_start hs
  unfold Scheduled at h
  cases he : s.start.ask s.topology.motor with
  | mk t err =>
    rw [he] at hr ha h
    cases err with
    | none => exact h.ended hs hr (hserved.ask ha)
    | some e =>
      obtain rfl : r = (t, some e) := h
      refine ⟨hr, by simp, fun e' he' => ?_⟩
      obtain rfl := Option.some.inj he'
      cases ha with
      | failed hshafts hstuck => exact hstuck.congr hshafts

theorem load_start_le (s : Simulator) : s.start.load ≤ s.shafts.size := by
  rw [Tick.load]
  have hc := Finset.card_filter_le (Finset.range s.start.shafts.size)
    fun i => ¬ s.start.shafts.Ready ⟨i⟩
  simpa [start] using hc

theorem scheduled_propagated {s : Simulator} (hs : s.AtRest) : s.Scheduled s.propagated := by
  have hrun := Tick.running_start hs
  obtain ⟨hr, ha⟩ := hrun.ask hs (Tick.mayAsk_motor hs s.start)
  have hserved := served_start hs
  unfold Scheduled propagated Tick.propagate
  cases he : s.start.ask s.topology.motor with
  | mk t err =>
    rw [he] at hr ha
    cases err with
    | some e => rfl
    | none =>
      refine Tick.drain_plays hs hr (hserved.ask ha) ?_
      rw [ha.load_eq hrun hr hs, hr.size]
      exact s.load_start_le

end Simulator

end DifferentialAnalyzer
