import DifferentialAnalyzer.Proofs.Machine.Operation
import Mathlib.Data.Set.Card
import Mathlib.Data.Set.Finite.Lemmas

/-! How often the shafts of a machine are determined. Every shaft that the motor can turn takes up
a device of its own; a tick finds a conflict exactly when a further device is enabled. -/

namespace DifferentialAnalyzer

namespace Simulator

/-- The shafts that turn with the motor. -/
inductive Reached (s : Simulator) : ShaftId → Prop
  | intro {id : DeviceId} {d : Device} {p : Path} (hd : s.devices[id.index]? = some d)
      (hp : p ∈ d.paths) (hn : ∀ n ∈ p.needs, Reached s n) : Reached s p.target

def reach (s : Simulator) : Set ShaftId :=
  {x | s.Reached x}

/-- The devices that have something to do when all these shafts turn. -/
def enabled (s : Simulator) : Set DeviceId :=
  {id | ∃ d, s.devices[id.index]? = some d ∧ d.Enabled s.Reached}

theorem exists_paths_eq {s s' : Simulator}
    (hf : s'.devices.map Device.fitting = s.devices.map Device.fitting) {i : Nat} {d : Device}
    (hd : s.devices[i]? = some d) : ∃ d', s'.devices[i]? = some d' ∧ d'.paths = d.paths := by
  have hi := congrArg (·[i]?) hf
  simp only [Array.getElem?_map, hd, Option.map_some, Option.map_eq_some_iff] at hi
  obtain ⟨d', hd', he⟩ := hi
  exact ⟨d', hd', Device.paths_eq_of_fitting_eq he⟩

theorem Reached.of_fittings {s s' : Simulator}
    (hf : s'.devices.map Device.fitting = s.devices.map Device.fitting) {x : ShaftId}
    (hx : s.Reached x) : s'.Reached x := by
  induction hx with
  | @intro id d p hd hp hn ih =>
    obtain ⟨d', hd', he⟩ := exists_paths_eq hf hd
    exact .intro hd' (he ▸ hp) ih

theorem reach_eq {s s' : Simulator}
    (hf : s'.devices.map Device.fitting = s.devices.map Device.fitting) : s'.reach = s.reach :=
  Set.Subset.antisymm (fun _ hx => hx.of_fittings hf.symm) fun _ hx => hx.of_fittings hf

theorem enabled_subset {s s' : Simulator}
    (hf : s'.devices.map Device.fitting = s.devices.map Device.fitting) :
    s.enabled ⊆ s'.enabled := by
  rintro id ⟨d, hd, p, hp, ho⟩
  obtain ⟨d', hd', he⟩ := exists_paths_eq hf hd
  exact ⟨d', hd', p, he ▸ hp, fun n hn => (ho n hn).of_fittings hf⟩

theorem enabled_eq {s s' : Simulator}
    (hf : s'.devices.map Device.fitting = s.devices.map Device.fitting) :
    s'.enabled = s.enabled :=
  Set.Subset.antisymm (enabled_subset hf.symm) (enabled_subset hf)

theorem AtRest.finite_reach {s : Simulator} (hs : s.AtRest) : s.reach.Finite := by
  apply ((Set.finite_lt_nat s.shafts.size).image fun i => (⟨i⟩ : ShaftId)).subset
  intro x hx
  cases hx with
  | @intro id d p hd hp hn =>
    exact ⟨p.target.index, hs.target_lt (Array.mem_of_getElem? hd) hp, rfl⟩

/-- Every shaft of the set has a device of its own, which gets to it from within the set. -/
structure Assigned (s : Simulator) (w : Set ShaftId) (driver : ShaftId → DeviceId) : Prop where
  reached : w ⊆ s.reach
  path : ∀ x ∈ w, ∃ d p, s.devices[(driver x).index]? = some d ∧ p ∈ d.paths ∧ p.target = x ∧
    p.Open (· ∈ w)
  injective : w.InjOn driver

/-- The device is left over, although all that it could resolve is in the set. -/
def Spare (s : Simulator) (w : Set ShaftId) (driver : ShaftId → DeviceId) (id : DeviceId) : Prop :=
  id ∉ driver '' w ∧ ∀ d, s.devices[id.index]? = some d → ∀ p ∈ d.paths, p.target ∈ w

section Assigned

variable {s : Simulator} {w : Set ShaftId} {driver : ShaftId → DeviceId}

theorem Assigned.not_mem_image (h : s.Assigned w driver) {id : DeviceId} {d : Device} {p : Path}
    (hd : s.devices[id.index]? = some d) (hp : p ∈ d.paths) (ht : p.target ∉ w) :
    id ∉ driver '' w := by
  rintro ⟨x, hx, rfl⟩
  obtain ⟨e, q, he, hq, rfl, ho⟩ := h.path x hx
  obtain rfl : e = d := Option.some.inj (he.symm.trans hd)
  rcases Device.target_eq_or_mem hq hp with hh | hh
  · exact ht (hh ▸ hx)
  · exact ht (ho _ hh)

theorem update_eq_of_mem {x y : ShaftId} (hx : x ∉ w) (hy : y ∈ w) (id : DeviceId) :
    Function.update driver x id y = driver y :=
  Function.update_of_ne (fun he : y = x => hx (he ▸ hy)) id driver

theorem Assigned.insert (h : s.Assigned w driver) {id : DeviceId} {d : Device} {p : Path}
    (hd : s.devices[id.index]? = some d) (hp : p ∈ d.paths) (ho : p.Open (· ∈ w))
    (ht : p.target ∉ w) :
    s.Assigned (insert p.target w) (Function.update driver p.target id) := by
  have hnot := h.not_mem_image hd hp ht
  refine ⟨?_, ?_, ?_⟩
  · rintro x (rfl | hx)
    · exact .intro hd hp fun n hn => h.reached (ho n hn)
    · exact h.reached hx
  · rintro x (rfl | hx)
    · exact ⟨d, p, by simpa using hd, hp, rfl, fun n hn => .inr (ho n hn)⟩
    · obtain ⟨e, q, he, hq, hqx, hqo⟩ := h.path x hx
      rw [update_eq_of_mem ht hx]
      exact ⟨e, q, he, hq, hqx, fun n hn => .inr (hqo n hn)⟩
  · rintro x (rfl | hx) y (rfl | hy) hxy
    · rfl
    · rw [Function.update_self, update_eq_of_mem ht hy] at hxy
      exact absurd ⟨y, hy, hxy.symm⟩ hnot
    · rw [Function.update_self, update_eq_of_mem ht hx] at hxy
      exact absurd ⟨x, hx, hxy⟩ hnot
    · rw [update_eq_of_mem ht hx, update_eq_of_mem ht hy] at hxy
      exact h.injective hx hy hxy

theorem Spare.insert {id₀ id : DeviceId} (h : s.Spare w driver id₀) {d : Device} {p : Path}
    (hd : s.devices[id.index]? = some d) (hp : p ∈ d.paths) (ht : p.target ∉ w) :
    s.Spare (insert p.target w) (Function.update driver p.target id) id₀ := by
  refine ⟨?_, fun e he q hq => .inr (h.2 e he q hq)⟩
  rintro ⟨x, rfl | hx, hid⟩
  · rw [Function.update_self] at hid
    subst hid
    exact ht (h.2 d hd p hp)
  · rw [update_eq_of_mem ht hx] at hid
    exact h.1 ⟨x, hx, hid⟩

theorem exists_path_of_ne_reach (h : w ⊆ s.reach) (hne : w ≠ s.reach) :
    ∃ (id : DeviceId) (d : Device) (p : Path), s.devices[id.index]? = some d ∧ p ∈ d.paths ∧
      p.Open (· ∈ w) ∧ p.target ∉ w := by
  by_contra hno
  refine hne (Set.Subset.antisymm h fun x hx => ?_)
  induction hx with
  | @intro id d p hd hp hn ih =>
    by_contra ht
    exact hno ⟨id, d, p, hd, hp, ih, ht⟩

/-- An assignment grows until it has a device for every shaft that turns, and a device that is
left over stays so. -/
theorem Assigned.complete (hs : s.AtRest) (h : s.Assigned w driver) {id₀ : DeviceId}
    (hspare : s.Spare w driver id₀) :
    ∃ driver', s.Assigned s.reach driver' ∧ s.Spare s.reach driver' id₀ := by
  -- Among the assignments that leave the device over one with most shafts has all of them.
  let family : Set (Set ShaftId) := {u | ∃ f, s.Assigned u f ∧ s.Spare u f id₀}
  have hfinite : family.Finite :=
    hs.finite_reach.finite_subsets.subset fun u ⟨_, hu, _⟩ => hu.reached
  obtain ⟨u, -, ⟨f, hu, hf⟩, hmax⟩ :=
    hfinite.exists_le_maximal (show w ∈ family from ⟨driver, h, hspare⟩)
  by_cases he : u = s.reach
  · exact ⟨f, he ▸ hu, he ▸ hf⟩
  · obtain ⟨id, d, p, hd, hp, ho, ht⟩ := exists_path_of_ne_reach hu.reached he
    have hle := hmax ⟨_, hu.insert hd hp ho ht, hf.insert hd hp ht⟩ (Set.subset_insert p.target u)
    exact absurd (hle (Set.mem_insert p.target u)) ht

theorem Assigned.image_subset_enabled (h : s.Assigned s.reach driver) :
    driver '' s.reach ⊆ s.enabled := by
  rintro - ⟨x, hx, rfl⟩
  obtain ⟨d, p, hd, hp, -, ho⟩ := h.path x hx
  exact ⟨d, hd, p, hp, ho⟩

end Assigned

end Simulator

namespace Tick

open Simulator

def driver (t : Tick) (x : ShaftId) : DeviceId :=
  (t.shafts.get x).driver.getD ⟨0⟩

theorem driver_eq {t : Tick} {x : ShaftId} {id : DeviceId} (h : t.shafts.DrivenBy x id) :
    t.driver x = id := by
  rw [driver, h.2, Option.getD_some]

theorem Running.drivenBy_driver {s : Simulator} {t : Tick} (h : Running s t) {x : ShaftId}
    (hx : t.shafts.Ready x) : t.shafts.DrivenBy x (t.driver x) := by
  obtain ⟨id, hid⟩ := h.attributed x hx
  rwa [driver_eq hid]

theorem Running.reached {s : Simulator} {t : Tick} (h : Running s t) {x : ShaftId}
    (hx : t.shafts.Ready x) : s.Reached x := by
  have hd := h.derived x hx
  clear hx
  induction hd with
  | @intro id d p hd hp hn hv hs ih => exact .intro hd hp ih

theorem Running.assigned {s : Simulator} {t : Tick} (h : Running s t) :
    s.Assigned {x | t.shafts.Ready x} t.driver where
  reached _ hx := h.reached hx
  path x hx := by
    obtain ⟨d, p, hd, hp, ht, ho, -⟩ := h.path (h.drivenBy_driver hx)
    exact ⟨d, p, hd, hp, ht, ho⟩
  injective x hx y hy he := h.drivesOne x y _ (h.drivenBy_driver hx) (he ▸ h.drivenBy_driver hy)

/-- A tick without an error has resolved all shafts that turn with the motor. -/
theorem Ended.ready_iff {s : Simulator} {r : Tick × Option MachineError} (h : Ended s r)
    (hok : r.2 = none) {x : ShaftId} : r.1.shafts.Ready x ↔ s.Reached x := by
  refine ⟨h.running.reached, fun hx => ?_⟩
  induction hx with
  | @intro id d p hd hp hn ih =>
    obtain ⟨q, hq, hdriven, ho, -⟩ := h.drives hok hd ⟨p, hp, ih⟩
    rcases Device.target_eq_or_mem hq hp with hh | hh
    · exact hh ▸ hdriven.1
    · exact ho _ hh

theorem Ended.encard_eq {s : Simulator} {r : Tick × Option MachineError} (h : Ended s r)
    (hok : r.2 = none) : s.enabled.encard = s.reach.encard := by
  have hready : {x | r.1.shafts.Ready x} = s.reach := Set.ext fun x => h.ready_iff hok
  have hassigned := h.running.assigned
  rw [hready] at hassigned
  rw [← hassigned.injective.encard_image]
  refine congrArg Set.encard (Set.Subset.antisymm ?_ hassigned.image_subset_enabled)
  rintro id ⟨d, hd, p, hp, ho⟩
  obtain ⟨x, hx⟩ := h.served hok id d hd ⟨p, hp, fun n hn => (h.ready_iff hok).mpr (ho n hn)⟩
  exact ⟨x, h.running.reached hx.1, driver_eq hx⟩

theorem Running.encard_lt {s : Simulator} (hs : s.AtRest) {t : Tick} (h : Running s t)
    {shaft : ShaftId} {id : DeviceId} (he : Stuck s t (.duplicateResolution shaft id)) :
    s.reach.encard < s.enabled.encard := by
  cases he with
  | @duplicate _ d p hd hp hen ht =>
    have hspare : s.Spare {x | t.shafts.Ready x} t.driver id := by
      refine ⟨?_, fun e he q hq => ?_⟩
      · rintro ⟨x, hx, rfl⟩
        have hdriven := h.drivenBy_driver hx
        obtain ⟨q, hq, rfl, -⟩ := h.used hd hdriven
        exact (ht q hq).2 hdriven
      · obtain rfl : e = d := Option.some.inj (he.symm.trans hd)
        exact (ht q hq).1
    obtain ⟨f, hf, hleft⟩ := h.assigned.complete hs hspare
    obtain ⟨q, hq, ho⟩ := hen
    have hmem : id ∈ s.enabled := ⟨d, hd, q, hq, fun n hn => h.reached (ho n hn)⟩
    rw [← hf.injective.encard_image]
    refine (hs.finite_reach.image f).encard_lt_encard ⟨hf.image_subset_enabled, fun hh => ?_⟩
    exact hleft.1 (hh hmem)

end Tick

/-- Unless a curve fails, a step succeeds exactly when as many devices are enabled as shafts turn,
and then these are the shafts that it resolves; it finds a conflict exactly when there are more. -/
theorem Simulator.step_iff_encard {s : Simulator} (h : s.Built) (ops : List Operation)
    (hcurves : ∀ id e, (s.after ops).step.2 ≠ some (.expression id e)) :
    ((s.after ops).step.2 = none ↔ s.enabled.encard = s.reach.encard) ∧
    ((∃ shaft id, (s.after ops).step.2 = some (.duplicateResolution shaft id)) ↔
      s.reach.encard < s.enabled.encard) ∧
    ((s.after ops).step.2 = none →
      {x | (s.after ops).propagated.1.shafts.Ready x} = s.reach) := by
  have hcont := h.atRest.after ops
  have hend := (scheduled_propagated hcont.rest).ended hcont.rest
  rw [step_eq, conclude_snd] at hcurves ⊢
  rw [← reach_eq hcont.fittings, ← enabled_eq hcont.fittings]
  have hcases : (s.after ops).propagated.2 = none ∨
      ∃ shaft id, (s.after ops).propagated.2 = some (.duplicateResolution shaft id) := by
    cases he : (s.after ops).propagated.2 with
    | none => exact .inl rfl
    | some e =>
      cases hend.stuck e he with
      | expression hd hp ho ht hv => exact absurd he (hcurves _ _)
      | duplicate hd hp hen ht => exact .inr ⟨_, _, rfl⟩
  have hlt : (∃ shaft id, (s.after ops).propagated.2 = some (.duplicateResolution shaft id)) →
      (s.after ops).reach.encard < (s.after ops).enabled.encard := by
    rintro ⟨shaft, id, he⟩
    exact hend.running.encard_lt hcont.rest (hend.stuck _ he)
  refine ⟨⟨hend.encard_eq, fun he => ?_⟩, ⟨hlt, fun hh => ?_⟩, fun hok => ?_⟩
  · exact hcases.resolve_right fun hd => (hlt hd).ne' he
  · exact hcases.resolve_left fun hok => hh.ne' (hend.encard_eq hok)
  · exact Set.ext fun x => hend.ready_iff hok

theorem Simulator.step_iff_encard_jammed : ∃ s : Simulator, s.Built ∧
    (∀ id e, (s.after []).step.2 ≠ some (.expression id e)) ∧
    (s.after []).step.2 = some (.duplicateResolution ⟨1⟩ ⟨4⟩) ∧
    s.reach.encard < s.enabled.encard := by
  have hb : ∃ s, (Assembly.ofPieces Piece.jammed).build = .ok s ∧
      (s.after []).step.2 = some (.duplicateResolution ⟨1⟩ ⟨4⟩) := ⟨_, rfl, by rfl⟩
  obtain ⟨s, hs, he⟩ := hb
  have hcurves : ∀ id e, (s.after []).step.2 ≠ some (.expression id e) := by simp [he]
  exact ⟨s, ⟨_, hs⟩, hcurves, he, (step_iff_encard ⟨_, hs⟩ [] hcurves).2.1.mp ⟨_, _, he⟩⟩

end DifferentialAnalyzer
