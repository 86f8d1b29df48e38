import DifferentialAnalyzer.Proofs.Machine.Abort
import Mathlib.Logic.Equiv.Basic

/-! Ticks end in the same way in whatever order shafts are taken up and devices asked, and also if
the devices of the machine were added in another order. -/

namespace DifferentialAnalyzer

/-- The same device after the devices have been put into another order. -/
def renamed (σ : Equiv.Perm Nat) (id : DeviceId) : DeviceId :=
  ⟨σ id.index⟩

theorem renamed_symm (σ : Equiv.Perm Nat) (id : DeviceId) : renamed σ.symm (renamed σ id) = id := by
  simp [renamed]

theorem renamed_injective {σ : Equiv.Perm Nat} {a b : DeviceId} (h : renamed σ a = renamed σ b) :
    a = b := by
  rw [← renamed_symm σ a, h, renamed_symm]

namespace Simulator

/-- Machines in the same state, the devices of the second one in another order. -/
structure Corresponds (σ : Equiv.Perm Nat) (s s' : Simulator) : Prop where
  shafts : s'.shafts = s.shafts
  tick : s'.tick = s.tick
  devices : ∀ i : Nat, s'.visible.devices[σ i]? = s.visible.devices[i]?

section Corresponds

variable {σ : Equiv.Perm Nat} {s s' : Simulator}

theorem Corresponds.symm (h : Corresponds σ s s') : Corresponds σ.symm s' s where
  shafts := h.shafts.symm
  tick := h.tick.symm
  devices i := by
    have hi := h.devices (σ.symm i)
    rw [Equiv.apply_symm_apply] at hi
    exact hi.symm

theorem Corresponds.device (h : Corresponds σ s s') {id : DeviceId} {d : Device}
    (hd : s.devices[id.index]? = some d) :
    ∃ d', s'.devices[(renamed σ id).index]? = some d' ∧ d'.uncached = d.uncached := by
  have hi := h.devices id.index
  simp only [visible, Array.getElem?_map, hd, Option.map_some] at hi
  exact Option.map_eq_some_iff.mp hi

theorem Corresponds.congr {t t' : Simulator} (h : Corresponds σ s s') (ht : t.visible = s.visible)
    (ht' : t'.visible = s'.visible) : Corresponds σ t t' := by
  obtain ⟨-, -, hshafts, htick⟩ := visible_eq_iff.mp ht
  obtain ⟨-, -, hshafts', htick'⟩ := visible_eq_iff.mp ht'
  refine ⟨?_, ?_, ?_⟩
  · rw [hshafts, hshafts', h.shafts]
  · rw [htick, htick', h.tick]
  · rw [ht, ht']
    exact h.devices

end Corresponds

end Simulator

namespace Tick

open Simulator

/-- The shaft has the same rotation in both ticks, and the same device has resolved it. -/
def Settled (σ : Equiv.Perm Nat) (t t' : Tick) (x : ShaftId) : Prop :=
  (t'.shafts.get x).next = (t.shafts.get x).next ∧
    ∀ id, t.shafts.DrivenBy x id → t'.shafts.DrivenBy x (renamed σ id)

theorem Settled.drivenBy {σ : Equiv.Perm Nat} {t t' : Tick} {x : ShaftId} (h : Settled σ t t' x)
    (ht : t.shafts.Attributed) (hx : t.shafts.Ready x) {id : DeviceId}
    (hid : t'.shafts.DrivenBy x (renamed σ id)) : t.shafts.DrivenBy x id := by
  obtain ⟨other, ho⟩ := ht x hx
  have he : renamed σ other = renamed σ id :=
    Option.some.inj ((h.2 other ho).2.symm.trans hid.2)
  exact renamed_injective he ▸ ho

section Settled

variable {σ : Equiv.Perm Nat} {s s' : Simulator} {t : Tick} {r : Tick × Option MachineError}

theorem Running.current_eq {t' : Tick} (ht : Running s t) (ht' : Running s' t')
    (h : Corresponds σ s s') (x : ShaftId) :
    (t'.shafts.get x).current = (t.shafts.get x).current := by
  rw [ht.current, ht'.current, h.shafts]

/-- If one tick has ended well and another one runs, a device whose path is open in both drives in
the first one the target of this path, or else a shaft that it drives in the second one too. -/
theorem Ended.drives_settled (hr : Ended s' r) (hok : r.2 = none) (ht : Running s t)
    (h : Corresponds σ s s') {id : DeviceId} {d : Device} {p : Path}
    (hd : s.devices[id.index]? = some d) (hp : p ∈ d.paths) (ho : p.Open t.shafts.Ready)
    (hn : ∀ n ∈ p.needs, Settled σ t r.1 n) : ∃ q ∈ d.paths,
      r.1.shafts.DrivenBy q.target (renamed σ id) ∧
      d.rotation r.1.shafts q.target = .ok (r.1.shafts.get q.target).next ∧
      (q.target = p.target ∨ t.shafts.DrivenBy q.target id) := by
  obtain ⟨d', hd', hu⟩ := h.device hd
  have hbare := Device.bare_eq_of_uncached hu
  have hopen : p.Open r.1.shafts.Ready := by
    intro n hm
    obtain ⟨other, hother⟩ := ht.attributed n (ho n hm)
    exact ((hn n hm).2 other hother).1
  have hen : d'.Enabled r.1.shafts.Ready :=
    ⟨p, Device.paths_eq_of_bare hbare ▸ hp, hopen⟩
  obtain ⟨q, hq, hdriven, -, hv⟩ := hr.drives hok hd' hen
  rw [Device.paths_eq_of_bare hbare] at hq
  rw [Device.rotation_eq_of_bare hbare] at hv
  refine ⟨q, hq, hdriven, hv, (Device.target_eq_or_mem hp hq).imp_right fun hm => ?_⟩
  exact (hn _ hm).drivenBy ht.attributed (ho _ hm) hdriven

/-- What a running tick has resolved is resolved in the same way in a tick that has ended well. -/
theorem Running.settled (ht : Running s t) (hs : s.AtRest) (hr : Ended s' r) (hok : r.2 = none)
    (h : Corresponds σ s s') {x : ShaftId} (hx : t.shafts.Ready x) : Settled σ t r.1 x := by
  have hderived := ht.derived x hx
  clear hx
  induction hderived with
  | @intro id d p hd hp hn hv hdriven ih =>
    obtain ⟨q, hq, hdriven', hv', htarget⟩ :=
      hr.drives_settled hok ht h hd hp (fun n hm => (hn n hm).ready) ih
    -- With another target the device would drive two shafts in `t`.
    have he : q.target = p.target :=
      htarget.elim (fun he => he) fun hh => ht.drivesOne _ _ id hh hdriven
    rw [he] at hdriven' hv'
    have hrot := Device.rotation_congr (hs.distinct (Array.mem_of_getElem? hd)) hp
      (fun n hm => (ih n hm).1) (ht.current_eq hr.running h)
    refine ⟨Except.ok.inj (hv'.symm.trans (hrot.trans hv)), fun other hother => ?_⟩
    obtain rfl : other = id := Option.some.inj (hother.2.symm.trans hdriven.2)
    exact hdriven'

/-- Beside a tick that has ended well no device gets stuck. -/
theorem Running.not_stuck (ht : Running s t) (hs : s.AtRest) (hr : Ended s' r) (hok : r.2 = none)
    (h : Corresponds σ s s') (e : MachineError) : ¬ Stuck s t e := by
  intro he
  have hall := fun x hx => ht.settled hs hr hok h (x := x) hx
  cases he with
  | @expression id d p e hd hp ho hnot hv =>
    have hn : ∀ n ∈ p.needs, Settled σ t r.1 n := fun n hm => hall n (ho n hm)
    obtain ⟨q, hq, -, hv', htarget | hdriven⟩ := hr.drives_settled hok ht h hd hp ho hn
    · have hrot := Device.rotation_congr (hs.distinct (Array.mem_of_getElem? hd)) hp
        (fun n hm => (hn n hm).1) (ht.current_eq hr.running h)
      rw [htarget, hrot, hv] at hv'
      exact absurd hv' (by simp)
    · exact ht.not_drivenBy hd hp hnot _ hdriven
  | @duplicate id d p hd hp hen hdone =>
    -- In `r` the device has one of the targets, which in `t` others have taken before it.
    obtain ⟨p', hp', ho⟩ := hen
    obtain ⟨q, hq, hdriven, -⟩ :=
      hr.drives_settled hok ht h hd hp' ho fun n hm => hall n (ho n hm)
    obtain ⟨hready, hnot⟩ := hdone q hq
    exact hnot ((hall _ hready).drivenBy ht.attributed hready hdriven)

theorem Ended.ok_of_ok {r' : Tick × Option MachineError} (hr' : Ended s r') (hs : s.AtRest)
    (hr : Ended s' r) (hok : r.2 = none) (h : Corresponds σ s s') : r'.2 = none := by
  cases he : r'.2 with
  | none => rfl
  | some e => exact absurd (hr'.stuck e he) (hr'.running.not_stuck hs hr hok h e)

end Settled

/-- Ends of a tick that agree on whether it succeeds, and if it does on the shafts and their
drivers; the machines correspond again afterwards. -/
structure Concur (σ : Equiv.Perm Nat) (s s' : Simulator) (r r' : Tick × Option MachineError) :
    Prop where
  succeeds : r'.2 = none ↔ r.2 = none
  next : r.2 = none → ∀ x, (r'.1.shafts.get x).next = (r.1.shafts.get x).next
  drivers : r.2 = none → ∀ x id,
    r'.1.shafts.DrivenBy x (renamed σ id) ↔ r.1.shafts.DrivenBy x id
  after : Corresponds σ (s.conclude r).1 (s'.conclude r').1

section Concur

variable {σ : Equiv.Perm Nat} {s s' : Simulator} {r r' : Tick × Option MachineError}

theorem Ended.next_eq (hr : Ended s r) (hr' : Ended s' r') (hs : s.AtRest) (hs' : s'.AtRest)
    (h : Corresponds σ s s') (hok : r.2 = none) (hok' : r'.2 = none) (x : ShaftId) :
    (r'.1.shafts.get x).next = (r.1.shafts.get x).next := by
  by_cases hx : r.1.shafts.Ready x
  · exact (hr.running.settled hs hr' hok' h hx).1
  · by_cases hx' : r'.1.shafts.Ready x
    · exact (hr'.running.settled hs' hr hok h.symm hx').1.symm
    · rw [hr.running.untouched x hx, hr'.running.untouched x hx', h.shafts]

theorem Ended.drivenBy_iff (hr : Ended s r) (hr' : Ended s' r') (hs : s.AtRest) (hs' : s'.AtRest)
    (h : Corresponds σ s s') (hok : r.2 = none) (hok' : r'.2 = none) (x : ShaftId)
    (id : DeviceId) : r'.1.shafts.DrivenBy x (renamed σ id) ↔ r.1.shafts.DrivenBy x id := by
  constructor
  · intro hx
    have hh := (hr'.running.settled hs' hr hok h.symm hx.1).2 _ hx
    rwa [renamed_symm] at hh
  · intro hx
    exact (hr.running.settled hs hr' hok' h hx.1).2 id hx

theorem Ended.uncached_eq (hr : Ended s r) (hr' : Ended s' r') (hs : s.AtRest) (hs' : s'.AtRest)
    (h : Corresponds σ s s') (hok : r.2 = none) (hok' : r'.2 = none) {id : DeviceId}
    {d d' now now' : Device} (hd : s.devices[id.index]? = some d)
    (hu : d'.uncached = d.uncached) (hnow : d.Stands id r.1.shafts now)
    (hnow' : d'.Stands (renamed σ id) r'.1.shafts now') : now'.uncached = now.uncached := by
  have hiff := fun x => hr.drivenBy_iff hr' hs hs' h hok hok' x id
  by_cases hx : ∃ x, r.1.shafts.DrivenBy x id
  · obtain ⟨x, hx⟩ := hx
    obtain ⟨p, hp, -⟩ := hr.running.used hd hx
    have hfired := Device.fired_congr hp (fun n _ => hr.next_eq hr' hs hs' h hok hok' n)
      (hr.running.current_eq hr'.running h)
    rw [hnow.moved ⟨x, hx⟩, hnow'.moved ⟨x, (hiff x).mpr hx⟩, ← hfired]
    exact Device.fired_eq_of_bare (Device.bare_eq_of_uncached hu) _
  · have hx' := not_exists.mp hx
    rw [hnow.unmoved hx', hnow'.unmoved fun x hh => hx' x ((hiff x).mp hh), hu]

theorem Ended.commit_shafts (hr : Ended s r) (hr' : Ended s' r') (hs : s.AtRest)
    (hs' : s'.AtRest) (h : Corresponds σ s s') (hok : r.2 = none) (hok' : r'.2 = none) :
    r'.1.shafts.map ShaftState.commit = r.1.shafts.map ShaftState.commit := by
  apply Shafts.ext_get
  · rw [Array.size_map, Array.size_map, hr.running.size, hr'.running.size, h.shafts]
  · intro x
    rw [Shafts.get_map rfl, Shafts.get_map rfl, ShaftState.commit, ShaftState.commit,
      hr.next_eq hr' hs hs' h hok hok' x]

theorem Ended.corresponds_commit {t t' : Tick} (hr : Ended s (t, none))
    (hr' : Ended s' (t', none)) (hs : s.AtRest) (hs' : s'.AtRest) (h : Corresponds σ s s') :
    Corresponds σ (s.conclude (t, none)).1 (s'.conclude (t', none)).1 := by
  have hshafts := hr.commit_shafts hr' hs hs' h rfl rfl
  refine ⟨hshafts, congrArg (· + 1) h.tick, fun i => ?_⟩
  simp only [visible, conclude, Array.getElem?_map, Option.map_map] at hshafts ⊢
  rw [hshafts]
  have hi := h.devices i
  simp only [visible, Array.getElem?_map] at hi
  cases hd : s.devices[i]? with
  | none =>
    have hd' : s'.devices[σ i]? = none := by simpa [hd] using hi
    have ht : t.devices[i]? = none := hr.running.getElem?_eq_none hd
    have ht' : t'.devices[σ i]? = none := hr'.running.getElem?_eq_none hd'
    rw [ht, ht']
  | some d =>
    rw [hd, Option.map_some] at hi
    obtain ⟨d', hd', hu⟩ := Option.map_eq_some_iff.mp hi
    obtain ⟨now, hnow, hst⟩ := hr.running.stands i d hd
    obtain ⟨now', hnow', hst'⟩ := hr'.running.stands (σ i) d' hd'
    have he := hr.uncached_eq hr' hs hs' h rfl rfl hd hu hst hst'
    rw [hnow, hnow', Option.map_some, Option.map_some, Function.comp, Function.comp,
      Device.uncached_commit now', he, ← Device.uncached_commit]

theorem Ended.concur (hr : Ended s r) (hr' : Ended s' r') (hs : s.AtRest) (hs' : s'.AtRest)
    (h : Corresponds σ s s') : Concur σ s s' r r' := by
  have hiff : r'.2 = none ↔ r.2 = none :=
    ⟨fun hok' => hr.ok_of_ok hs hr' hok' h, fun hok => hr'.ok_of_ok hs' hr hok h.symm⟩
  refine ⟨hiff, fun hok => hr.next_eq hr' hs hs' h hok (hiff.mpr hok),
    fun hok => hr.drivenBy_iff hr' hs hs' h hok (hiff.mpr hok), ?_⟩
  by_cases hok : r.2 = none
  · obtain ⟨t, err⟩ := r
    obtain ⟨t', err'⟩ := r'
    obtain rfl : err = none := hok
    obtain rfl : err' = none := hiff.mpr rfl
    exact hr.corresponds_commit hr' hs hs' h
  · exact h.congr (hs.visible_conclude hr.running hok)
      (hs'.visible_conclude hr'.running fun hok' => hok (hiff.mp hok'))

end Concur

end Tick

namespace Simulator

section Corresponds

variable {σ : Equiv.Perm Nat} {s s' : Simulator}

theorem Corresponds.step (h : Corresponds σ s s') (hs : s.AtRest) (hs' : s'.AtRest) :
    (s'.step.2 = none ↔ s.step.2 = none) ∧ Corresponds σ s.step.1 s'.step.1 := by
  have hh := ((scheduled_propagated hs).ended hs).concur ((scheduled_propagated hs').ended hs')
    hs hs' h
  rw [step_eq, step_eq, conclude_snd, conclude_snd]
  exact ⟨hh.succeeds, hh.after⟩

theorem Corresponds.run (h : Corresponds σ s s') (hs : s.AtRest) (hs' : s'.AtRest)
    (count : Nat) : Corresponds σ (s.run count).1 (s'.run count).1 := by
  induction count generalizing s s' with
  | zero => exact h
  | succ count ih =>
    obtain ⟨hiff, hnext⟩ := h.step hs hs'
    have hrest := hs.step.rest
    have hrest' := hs'.step.rest
    rw [run_succ, run_succ]
    cases ht : s.step with
    | mk t err =>
      cases ht' : s'.step with
      | mk t' err' =>
        rw [ht, ht'] at hiff hnext
        rw [ht] at hrest
        rw [ht'] at hrest'
        cases err with
        | none =>
          obtain rfl : err' = none := hiff.mpr rfl
          exact ih hnext hrest hrest'
        | some e =>
          cases err' with
          | none => exact absurd (hiff.mp rfl) (by simp)
          | some e' => exact hnext

theorem Corresponds.motor (h : Corresponds σ s s') (hs : s.AtRest) (hs' : s'.AtRest) :
    σ s.topology.motor.index = s'.topology.motor.index := by
  have hm := hs.describes.motor
  simp only [List.getElem?_map, Array.getElem?_toList, Option.map_map] at hm
  obtain ⟨d, hd, hk⟩ := Option.map_eq_some_iff.mp hm
  obtain ⟨d', hd', hu⟩ := h.device hd
  have hf := Device.fitting_eq_of_bare (Device.bare_eq_of_uncached hu)
  refine hs'.describes.onlyMotor _ d'.fitting ?_ (hf ▸ hk)
  simp only [List.getElem?_map, Array.getElem?_toList]
  exact congrArg (Option.map Device.fitting) hd'

theorem Corresponds.turn (h : Corresponds σ s s') (hs : s.AtRest) (hs' : s'.AtRest) (r : Float) :
    Corresponds σ { s with devices := s.devices.modify s.topology.motor.index (turned r) }
      { s' with devices := s'.devices.modify s'.topology.motor.index (turned r) } := by
  refine ⟨h.shafts, h.tick, fun i => ?_⟩
  have hi := h.devices i
  simp only [visible] at hi ⊢
  rw [map_modify (uncached_turned r), map_modify (uncached_turned r), Array.getElem?_modify,
    Array.getElem?_modify, ← h.motor hs hs', hi]
  simp only [σ.apply_eq_iff_eq]

theorem Corresponds.reset (h : Corresponds σ s s') : Corresponds σ s.reset s'.reset := by
  refine ⟨by simp only [Simulator.reset, h.shafts], rfl, fun i => ?_⟩
  have hi := congrArg (Option.map fun d => d.reset.uncached) (h.devices i)
  simp only [visible, Simulator.reset, Array.getElem?_map, Option.map_map, Function.comp_def,
    Device.uncached_reset] at hi ⊢
  exact hi

theorem Corresponds.perform (h : Corresponds σ s s') (hs : s.AtRest) (hs' : s'.AtRest)
    (op : Operation) : Corresponds σ (s.perform op).1 (s'.perform op).1 := by
  cases op with
  | step => exact (h.step hs hs').2
  | run count => exact h.run hs hs' count
  | setMotorRotation rotation =>
    simp only [Simulator.perform, setMotorRotation_eq]
    cases requireFinite "motor rotation" rotation with
    | ok r => exact h.turn hs hs' r
    | error e => exact h
  | reset => exact h.reset

theorem Corresponds.after (h : Corresponds σ s s') (hs : s.AtRest) (hs' : s'.AtRest)
    (ops : List Operation) : Corresponds σ (s.after ops) (s'.after ops) := by
  induction ops generalizing s s' with
  | nil => exact h
  | cons op ops ih =>
    exact ih (h.perform hs hs' op) (hs.perform op).rest (hs'.perform op).rest

end Corresponds

theorem perm_of_getElem? {α : Type} {l l' : List α} {σ : Equiv.Perm Nat}
    (h : ∀ i : Nat, l'[σ i]? = l[i]?) : l.Perm l' := by
  have hnodup : ∀ xs : List α, xs.zipIdx.Nodup := by
    intro xs
    apply List.Nodup.of_map Prod.snd
    rw [List.zipIdx_map_snd]
    exact List.nodup_range'
  have hmoved : (l.zipIdx.map fun p => (p.1, σ p.2)).Nodup := by
    refine (hnodup l).map fun p q hpq => ?_
    exact Prod.ext (Prod.mk.inj hpq).1 (σ.injective (Prod.mk.inj hpq).2)
  have hperm : (l.zipIdx.map fun p => (p.1, σ p.2)).Perm l'.zipIdx := by
    rw [List.perm_ext_iff_of_nodup hmoved (hnodup l')]
    rintro ⟨x, j⟩
    simp only [List.mem_map, Prod.exists, List.mem_zipIdx_iff_getElem?, Prod.mk.injEq]
    constructor
    · rintro ⟨y, i, hy, rfl, rfl⟩
      rw [h, hy]
    · intro hx
      refine ⟨x, σ.symm j, ?_, rfl, σ.apply_symm_apply j⟩
      rw [← h, σ.apply_symm_apply, hx]
  have hh := hperm.map Prod.fst
  simp only [List.map_map] at hh
  have hl : l.zipIdx.map (Prod.fst ∘ fun p => (p.1, σ p.2)) = l := List.zipIdx_map_fst 0 l
  rwa [hl, List.zipIdx_map_fst] at hh

theorem exists_build {pieces pieces' : List Piece} {σ : Equiv.Perm Nat} {s : Simulator}
    (hshafts : Piece.shafts pieces' = Piece.shafts pieces)
    (hdevices : ∀ i : Nat, (Piece.devices pieces')[σ i]? = (Piece.devices pieces)[i]?)
    (hs : (Assembly.ofPieces pieces).build = .ok s) :
    ∃ s', (Assembly.ofPieces pieces').build = .ok s' ∧ Corresponds σ s s' := by
  have hperm := perm_of_getElem? hdevices
  obtain ⟨hcheck, topology, ht, rfl⟩ := (Assembly.build_eq_ok_iff _ s).mp hs
  have hsame : (Assembly.ofPieces pieces').draft.shafts =
      (Assembly.ofPieces pieces).draft.shafts := by
    rw [← Array.toList_inj, Assembly.shafts_ofPieces, Assembly.shafts_ofPieces, hshafts]
  have haccepted := (Assembly.holds_ofPieces pieces).build_isOk_iff.mp ⟨topology, ht⟩
  rw [← hsame] at haccepted
  obtain ⟨topology', ht'⟩ := (Assembly.holds_ofPieces pieces').build_isOk_iff.mpr
    (haccepted.perm (hperm.map Device.fitting))
  rw [Assembly.checkParameters_eq_ok_iff, Assembly.devices_ofPieces] at hcheck
  have hcheck' : Assembly.checkParameters (Assembly.ofPieces pieces').devices.toList = .ok () := by
    rw [Assembly.checkParameters_eq_ok_iff, Assembly.devices_ofPieces]
    exact fun d hd => hcheck d (hperm.mem_iff.mpr hd)
  refine ⟨_, (Assembly.build_eq_ok_iff _ _).mpr ⟨hcheck', topology', ht', rfl⟩, ?_, rfl,
    fun i => ?_⟩
  · obtain ⟨-, -, -, -, -, rfl⟩ := (Topology.Draft.build_eq_ok_iff _ _).mp ht
    obtain ⟨-, -, -, -, -, rfl⟩ := (Topology.Draft.build_eq_ok_iff _ _).mp ht'
    simp only [ofTopology, hsame]
  · simp only [visible, ofTopology, Assembly.devices_ofPieces, Array.getElem?_map,
      List.getElem?_toArray, hdevices]

theorem AtRest.exists_scheduled {s : Simulator} (h : s.AtRest) :
    ∃ r, s.Scheduled r ∧ s.step = s.conclude r :=
  ⟨s.propagated, scheduled_propagated h, step_eq s⟩

/-- Steps follow schedules, and all schedules of a tick come to the same end, also after the devices
were added in another order: it is without an error or not, and if it is, each shaft has the same
rotation and driver, and the machines are in the same state afterwards. -/
theorem confluent {pieces pieces' : List Piece} {σ : Equiv.Perm Nat} {s : Simulator}
    (hshafts : Piece.shafts pieces' = Piece.shafts pieces)
    (hdevices : ∀ i : Nat, (Piece.devices pieces')[σ i]? = (Piece.devices pieces)[i]?)
    (hs : (Assembly.ofPieces pieces).build = .ok s) :
    ∃ s', (Assembly.ofPieces pieces').build = .ok s' ∧
      (∀ ops, ∃ r, (s.after ops).Scheduled r ∧ (s.after ops).step = (s.after ops).conclude r) ∧
      (∀ ops, ∃ r, (s'.after ops).Scheduled r ∧ (s'.after ops).step = (s'.after ops).conclude r) ∧
      (∀ ops, Corresponds σ (s.after ops) (s'.after ops)) ∧
      ∀ ops ops', Corresponds σ (s.after ops) (s'.after ops') → ∀ r r',
        (s.after ops).Scheduled r → (s'.after ops').Scheduled r' →
          Tick.Concur σ (s.after ops) (s'.after ops') r r' := by
  obtain ⟨s', hs', h⟩ := exists_build hshafts hdevices hs
  have hrest : s.AtRest := Built.atRest ⟨pieces, hs⟩
  have hrest' : s'.AtRest := Built.atRest ⟨pieces', hs'⟩
  refine ⟨s', hs', fun ops => (hrest.after ops).rest.exists_scheduled,
    fun ops => (hrest'.after ops).rest.exists_scheduled, h.after hrest hrest', ?_⟩
  intro ops ops' hc r r' hr hr'
  have ha := (hrest.after ops).rest
  have ha' := (hrest'.after ops').rest
  exact (hr.ended ha).concur (hr'.ended ha') ha ha' hc

theorem confluent_tripler : ∃ s s' : Simulator,
    (Assembly.ofPieces Piece.tripler).build = .ok s ∧
    (Assembly.ofPieces Piece.reversed).build = .ok s' ∧
    ∀ r r', s.Scheduled r → s'.Scheduled r' →
      Tick.Concur ((Equiv.swap 0 3).trans (Equiv.swap 1 2)) s s' r r' := by
  have hshafts : Piece.shafts Piece.reversed = Piece.shafts Piece.tripler := rfl
  have hdevices : ∀ i : Nat,
      (Piece.devices Piece.reversed)[((Equiv.swap 0 3).trans (Equiv.swap 1 2)) i]? =
        (Piece.devices Piece.tripler)[i]? := by
    intro i
    match i with
    | 0 => rfl
    | 1 => rfl
    | 2 => rfl
    | 3 => rfl
    | i + 4 =>
      have h₁ : Equiv.swap 1 2 (i + 4) = i + 4 := Equiv.swap_apply_of_ne_of_ne (by omega) (by omega)
      have h₂ : Equiv.swap 0 3 (i + 4) = i + 4 := Equiv.swap_apply_of_ne_of_ne (by omega) (by omega)
      rw [Equiv.trans_apply, h₂, h₁]
      rfl
  have hb : ∃ s, (Assembly.ofPieces Piece.tripler).build = .ok s := ⟨_, rfl⟩
  obtain ⟨s, hs⟩ := hb
  obtain ⟨s', hs', -, -, hc, hall⟩ := confluent hshafts hdevices hs
  exact ⟨s, s', hs, hs', fun r r' hr hr' => hall [] [] (hc []) r r' hr hr'⟩

end Simulator

end DifferentialAnalyzer
