import DifferentialAnalyzer.Proofs.Machine.Asking

/-! The loop of a tick, one turn after another and with no bound on the number of turns. A shaft
comes to wait when it gets its rotation, which it does once, so that the loop comes to an end by
itself. -/

namespace DifferentialAnalyzer

namespace Topology

/-- How many ports have their devices asked when the shafts that they are on are resolved. -/
def reactingPorts (t : Topology) : Nat :=
  t.ports.toList.countP fun p => p.role = .input ∨ p.role = .link

/-- The ports of every shaft are all those that are on it. -/
def Sorted (t : Topology) : Prop :=
  ∀ x, t.portRecords x = t.ports.toList.filter (·.shaft = x)

theorem sorted_of_build {d : Draft} {t : Topology} (h : d.build = .ok t) : t.Sorted := by
  intro x
  rw [Draft.portRecords_of_build h, (Draft.fields_of_build h).2.2]

theorem length_flatMap_le (P : Port → Bool) {xs : List ShaftId} (h : xs.Nodup)
    (ports : List Port) :
    (xs.flatMap fun x => (ports.filter (·.shaft = x)).filter P).length ≤ ports.countP P := by
  induction xs generalizing ports with
  | nil => exact Nat.zero_le _
  | cons x xs ih =>
    obtain ⟨hx, hnd⟩ := List.nodup_cons.mp h
    -- The other shafts' ports are found among those that are not on `x`.
    have hrest : (xs.flatMap fun y => (ports.filter (·.shaft = y)).filter P) =
        xs.flatMap fun y => ((ports.filter (·.shaft ≠ x)).filter (·.shaft = y)).filter P := by
      refine List.flatMap_congr fun y hy => congrArg _ ?_
      rw [List.filter_filter]
      refine List.filter_congr fun p _ => ?_
      have hne : y ≠ x := fun he => hx (he ▸ hy)
      by_cases hp : p.shaft = y <;> simp [hp, hne]
    have hsplit := List.countP_eq_countP_filter_add ports P (·.shaft = x)
    have hle := ih hnd (ports.filter (·.shaft ≠ x))
    rw [List.flatMap_cons, List.length_append, ← List.countP_eq_length_filter, hrest]
    simp only [decide_not] at hsplit hle ⊢
    omega

/-- Taking up shafts, each of them once, devices are asked no more often than there are ports. -/
theorem Sorted.length_reactive_le {t : Topology} (h : t.Sorted) {xs : List ShaftId}
    (hx : xs.Nodup) : (xs.flatMap t.reactive).length ≤ t.reactingPorts := by
  have hrole : (fun p : Port => p.role.reacts) =
      fun p => decide (p.role = .input ∨ p.role = .link) := by
    funext p
    cases p.role <;> decide
  have hreactive : t.reactive = fun x =>
      ((t.ports.toList.filter (·.shaft = x)).filter (·.role.reacts)).map (·.device) := by
    funext x
    rw [reactive, h x]
  rw [hreactive, ← List.map_flatMap, List.length_map, reactingPorts, ← hrole]
  exact length_flatMap_le _ hx _

end Topology

/-- A tick with what is still to be done in it. -/
structure Loop where
  tick : Tick
  /-- The devices to ask before another shaft is taken up. -/
  pending : List DeviceId
  failure : Option MachineError
  /-- The shafts taken up so far, the latest first. -/
  taken : List ShaftId
  /-- The devices asked so far, the latest first. -/
  asked : List DeviceId

namespace Loop

/-- Asks the next device, or takes up the shaft that came last. Nothing is left to do after an
error, or when no device is to be asked and no shaft waits. -/
def next? (topology : Topology) (l : Loop) : Option Loop :=
  match l.failure, l.pending, l.tick.waiting with
  | some _, _, _ => none
  | none, id :: ids, _ =>
    some ⟨(l.tick.ask id).1, ids, (l.tick.ask id).2, l.taken, id :: l.asked⟩
  | none, [], x :: rest =>
    some ⟨{ l.tick with waiting := rest }, topology.reactive x, none, x :: l.taken, l.asked⟩
  | none, [], [] => none

def advance (topology : Topology) (l : Loop) : Loop :=
  (l.next? topology).getD l

/-- The shaft comes to wait. -/
def Pushes (l l' : Loop) (x : ShaftId) : Prop :=
  l'.tick.waiting = x :: l.tick.waiting

/-- It is the device's turn to be asked. -/
structure Asks (l : Loop) (id : DeviceId) (d : Device) : Prop where
  failure : l.failure = none
  pending : l.pending.head? = some id
  device : l.tick.devices[id.index]? = some d

end Loop

namespace Simulator

/-- The loop of a tick after so many turns. -/
def loop (s : Simulator) : Nat → Loop
  | 0 => ⟨s.start, [s.topology.motor], none, [], []⟩
  | n + 1 => (s.loop n).advance s.topology

/-- As many turns as there are shafts to take up and devices to ask. -/
def maxTurns (s : Simulator) : Nat :=
  s.shafts.size + (1 + s.topology.reactingPorts)

end Simulator

namespace Tick

/-- What asking a device does to shafts. -/
inductive Heard (t : Tick) (id : DeviceId) : Tick × Option MachineError → Prop
  | wrote {x : ShaftId} {t' : Tick} (hx : x.index < t.shafts.size) (ht : ¬ t.shafts.Ready x)
      (hready : ∀ y, t'.shafts.Ready y ↔ y = x ∨ t.shafts.Ready y)
      (hdriven : t'.shafts.DrivenBy x id) (hwaiting : t'.waiting = x :: t.waiting) :
      Heard t id (t', none)
  | passed {t' : Tick} (hshafts : t'.shafts = t.shafts) (hwaiting : t'.waiting = t.waiting) :
      Heard t id (t', none)
  | refused {t' : Tick} {d : Device} {e : MachineError} (hd : t.devices[id.index]? = some d)
      (he : (d.resolve id t.shafts).2 = .error e) (hshafts : t'.shafts = t.shafts)
      (hwaiting : t'.waiting = t.waiting) : Heard t id (t', some e)

theorem Fits.heard {s : Simulator} {t : Tick} (h : Fits s t) (hs : s.Wired) (id : DeviceId) :
    t.Heard id (t.ask id) := by
  cases hd : t.devices[id.index]? with
  | none =>
    rw [ask_of_none hd]
    exact .passed rfl rfl
  | some d =>
    rw [ask_eq hd]
    cases hr : (d.resolve id t.shafts).2 with
    | error e => exact .refused hd hr rfl rfl
    | ok r =>
      cases r with
      | idle => exact .passed rfl rfl
      | unchanged x => exact .passed rfl rfl
      | write x v =>
        have ht := (Device.leadsTo_of_resolve hr).2
        have hlt := h.target_lt hs hd hr
        dsimp only
        rw [apply_write ht]
        exact .wrote hlt ht (fun _ => ready_written hlt)
          ((drivenBy_written hlt).mpr (.inl ⟨rfl, rfl⟩)) rfl

end Tick

namespace Loop

variable {s : Simulator} {l l' : Loop}

theorem next?_cases {topology : Topology} (h : l.next? topology = some l') :
    (∃ id ids, l.failure = none ∧ l.pending = id :: ids ∧
      l' = ⟨(l.tick.ask id).1, ids, (l.tick.ask id).2, l.taken, id :: l.asked⟩) ∨
    (∃ x rest, l.failure = none ∧ l.pending = [] ∧ l.tick.waiting = x :: rest ∧
      l' = ⟨{ l.tick with waiting := rest }, topology.reactive x, none, x :: l.taken,
        l.asked⟩) := by
  unfold next? at h
  split at h
  next => cases h
  next id ids hf hp => exact .inl ⟨id, ids, hf, hp, (Option.some.inj h).symm⟩
  next x rest hf hp hw => exact .inr ⟨x, rest, hf, hp, hw, (Option.some.inj h).symm⟩
  next => cases h

theorem next?_eq_none {topology : Topology} (h : l.next? topology = none) (hf : l.failure = none) :
    l.pending = [] ∧ l.tick.waiting = [] := by
  unfold next? at h
  split at h
  next he => cases hf.symm.trans he
  next => cases h
  next => cases h
  next hp hw => exact ⟨hp, hw⟩

/-- The shafts with rotations are those that wait and those that were taken up, and no others'
devices are asked. -/
structure Sound (s : Simulator) (l : Loop) : Prop where
  fits : Tick.Fits s l.tick
  nodup : (l.taken ++ l.tick.waiting).Nodup
  ready : ∀ x, l.tick.shafts.Ready x ↔ x ∈ l.taken ++ l.tick.waiting
  attributed : l.tick.shafts.Attributed
  inRange : ∀ x ∈ l.taken ++ l.tick.waiting, x.index < s.shafts.size
  asked : l.asked.length + l.pending.length =
    1 + (l.taken.flatMap s.topology.reactive).length

theorem Sound.unmoved (h : Sound s l) {id : DeviceId} {ids : List DeviceId} {t : Tick}
    (failure : Option MachineError) (hp : l.pending = id :: ids) (hfits : Tick.Fits s t)
    (hshafts : t.shafts = l.tick.shafts) (hwaiting : t.waiting = l.tick.waiting) :
    Sound s ⟨t, ids, failure, l.taken, id :: l.asked⟩ := by
  have hasked := h.asked
  rw [hp, List.length_cons] at hasked
  refine ⟨hfits, ?_, ?_, ?_, ?_, ?_⟩
  · simpa only [hwaiting] using h.nodup
  · simpa only [hwaiting, hshafts] using h.ready
  · simpa only [hshafts] using h.attributed
  · simpa only [hwaiting] using h.inRange
  · simp only [List.length_cons]
    omega

theorem Sound.ask (h : Sound s l) (hs : s.Wired) {id : DeviceId} {ids : List DeviceId}
    (hp : l.pending = id :: ids) :
    Sound s ⟨(l.tick.ask id).1, ids, (l.tick.ask id).2, l.taken, id :: l.asked⟩ := by
  have hfits : Tick.Fits s (l.tick.ask id).1 := h.fits.happen (.ask id)
  have hext := Tick.extends_ask l.tick id
  have hheard := h.fits.heard hs id
  generalize l.tick.ask id = r at hfits hext hheard
  cases hheard with
  | @wrote x t' hx ht hready hdriven hwaiting =>
    -- A shaft that waits or was taken up has its rotation, and this one had none.
    have hperm : (l.taken ++ t'.waiting).Perm (x :: (l.taken ++ l.tick.waiting)) := by
      rw [hwaiting]
      exact List.perm_middle
    refine ⟨hfits, ?_, fun y => ?_, fun y hy => ?_, fun y hy => ?_, ?_⟩
    · exact hperm.nodup_iff.mpr (List.nodup_cons.mpr ⟨mt (h.ready x).mpr ht, h.nodup⟩)
    · rw [hready, hperm.mem_iff, List.mem_cons, h.ready]
    · rcases (hready y).mp hy with rfl | hy
      · exact ⟨id, hdriven⟩
      · obtain ⟨i, hi⟩ := h.attributed y hy
        exact ⟨i, hext.drivenBy hi⟩
    · rcases List.mem_cons.mp (hperm.mem_iff.mp hy) with rfl | hy
      · rw [← h.fits.size]
        exact hx
      · exact h.inRange y hy
    · have hasked := h.asked
      rw [hp, List.length_cons] at hasked
      simp only [List.length_cons]
      omega
  | passed hshafts hwaiting => exact h.unmoved none hp hfits hshafts hwaiting
  | @refused t' d e hd he hshafts hwaiting =>
    exact h.unmoved (some e) hp hfits hshafts hwaiting

theorem Sound.take (h : Sound s l) {x : ShaftId} {rest : List ShaftId} (hp : l.pending = [])
    (hw : l.tick.waiting = x :: rest) :
    Sound s ⟨{ l.tick with waiting := rest }, s.topology.reactive x, none, x :: l.taken,
      l.asked⟩ := by
  have hperm : (x :: l.taken ++ rest).Perm (l.taken ++ l.tick.waiting) := by
    rw [hw]
    exact List.perm_middle.symm
  have hasked := h.asked
  rw [hp, List.length_nil] at hasked
  refine ⟨h.fits.waiting rest, ?_, fun y => ?_, h.attributed, fun y hy => ?_, ?_⟩
  · exact hperm.nodup_iff.mpr h.nodup
  · exact (h.ready y).trans hperm.mem_iff.symm
  · exact h.inRange y (hperm.mem_iff.mp hy)
  · simp only [List.flatMap_cons, List.length_append]
    omega

theorem Sound.next (h : Sound s l) (hs : s.Wired) (hn : l.next? s.topology = some l') :
    Sound s l' := by
  rcases next?_cases hn with ⟨id, ids, -, hp, rfl⟩ | ⟨x, rest, -, hp, hw, rfl⟩
  · exact h.ask hs hp
  · exact h.take hp hw

theorem Sound.length_le (h : Sound s l) :
    (l.taken ++ l.tick.waiting).length ≤ s.shafts.size := by
  have hinj : Function.Injective (Id.index : ShaftId → Nat) := fun ⟨_⟩ ⟨_⟩ he => congrArg _ he
  have hsub : (l.taken ++ l.tick.waiting).map Id.index ⊆ List.range s.shafts.size := by
    intro i hi
    obtain ⟨x, hx, rfl⟩ := List.mem_map.mp hi
    exact List.mem_range.mpr (h.inRange x hx)
  simpa using (List.subperm_of_subset (h.nodup.map hinj) hsub).length_le

theorem Sound.taken_le (h : Sound s l) : l.taken.length ≤ s.shafts.size :=
  Nat.le_trans (by simp) h.length_le

theorem Sound.asked_le (h : Sound s l) (ht : s.topology.Sorted) :
    l.asked.length ≤ 1 + s.topology.reactingPorts := by
  have hnodup := h.nodup.sublist (List.sublist_append_left l.taken l.tick.waiting)
  have hle := ht.length_reactive_le hnodup
  have hasked := h.asked
  omega

/-- What the tick ends with if it goes on with the loop of the machine. -/
def result (s : Simulator) (l : Loop) : Tick × Option MachineError :=
  match l.failure with
  | some e => (l.tick, some e)
  | none => Tick.andThen (Tick.drain s.topology (s.shafts.size - l.taken.length))
      (l.tick.askAll l.pending)

theorem Sound.result_next (h : Sound s l) (hs : s.Wired) (hn : l.next? s.topology = some l') :
    l'.result s = l.result s := by
  have hnext := h.next hs hn
  rcases next?_cases hn with ⟨id, ids, hf, hp, rfl⟩ | ⟨x, rest, hf, hp, hw, rfl⟩
  · simp only [result, hf, hp, Tick.askAll_cons]
    obtain ⟨t, _ | e⟩ := l.tick.ask id <;> rfl
  · -- The machine lets as many shafts be taken up as there are, so that there is room for this one.
    have hle := hnext.taken_le
    rw [List.length_cons] at hle
    obtain ⟨count, hcount⟩ : ∃ count, s.shafts.size - l.taken.length = count + 1 :=
      ⟨s.shafts.size - l.taken.length - 1, by omega⟩
    have hrest : s.shafts.size - (l.taken.length + 1) = count := by omega
    have hdrain := Tick.drain_cons s.topology count hw
    simp only [result, hf, hp, hcount, hrest, List.length_cons]
    exact hdrain.symm

theorem result_of_next?_eq_none (h : l.next? s.topology = none) :
    l.result s = (l.tick, l.failure) := by
  cases hf : l.failure with
  | some e => simp only [result, hf]
  | none =>
    obtain ⟨hp, hw⟩ := next?_eq_none h hf
    simp only [result, hf, hp, Tick.askAll, Tick.andThen]
    cases s.shafts.size - l.taken.length with
    | zero => rfl
    | succ count => simp only [Tick.drain, hw]

theorem extends_next {topology : Topology} (hn : l.next? topology = some l') :
    l.tick.shafts.Extends l'.tick.shafts := by
  rcases next?_cases hn with ⟨id, ids, -, -, rfl⟩ | ⟨x, rest, -, -, -, rfl⟩
  · exact Tick.extends_ask l.tick id
  · exact .refl _

theorem count_next {topology : Topology} (hn : l.next? topology = some l') :
    l'.taken.length + l'.asked.length = l.taken.length + l.asked.length + 1 := by
  rcases next?_cases hn with ⟨id, ids, -, -, rfl⟩ | ⟨x, rest, -, -, -, rfl⟩ <;>
  · simp only [List.length_cons]
    omega

/-- A shaft comes to wait exactly when it gets its rotation. -/
theorem Sound.pushes_iff (h : Sound s l) (hs : s.Wired) (hn : l.next? s.topology = some l')
    (x : ShaftId) : l.Pushes l' x ↔ ¬ l.tick.shafts.Ready x ∧ l'.tick.shafts.Ready x := by
  rcases next?_cases hn with ⟨id, ids, -, -, rfl⟩ | ⟨y, rest, -, -, hw, rfl⟩
  · have hheard := h.fits.heard hs id
    rw [Pushes]
    generalize l.tick.ask id = r at hheard
    cases hheard with
    | @wrote y t' hy ht hready hdriven hwaiting =>
      simp only [hwaiting, List.cons.injEq, and_true, hready]
      exact ⟨fun he => ⟨he ▸ ht, .inl he.symm⟩, fun ⟨hx, he⟩ => (he.resolve_right hx).symm⟩
    | passed hshafts hwaiting => simp [hshafts, hwaiting]
    | refused hd he hshafts hwaiting => simp [hshafts, hwaiting]
  · have hlen : rest ≠ x :: y :: rest := by
      intro he
      have hlength := congrArg List.length he
      simp only [List.length_cons] at hlength
      omega
    simp [Pushes, hw, hlen]

theorem Sound.refused (h : Sound s l) (hs : s.Wired) (hn : l.next? s.topology = some l')
    {e : MachineError} (he : l'.failure = some e) : ∃ id d, l.Asks id d ∧
      (d.resolve id l.tick.shafts).2 = .error e ∧ l'.tick.shafts = l.tick.shafts := by
  rcases next?_cases hn with ⟨id, ids, hf, hp, rfl⟩ | ⟨x, rest, -, -, -, rfl⟩
  · have hheard := h.fits.heard hs id
    dsimp only at he ⊢
    generalize l.tick.ask id = r at hheard he
    cases hheard with
    | wrote hx ht hready hdriven hwaiting => cases he
    | passed hshafts hwaiting => cases he
    | @refused t' d e' hd hr hshafts hwaiting =>
      obtain rfl : e' = e := Option.some.inj he
      exact ⟨id, d, ⟨hf, by rw [hp, List.head?_cons], hd⟩, hr, hshafts⟩
  · cases he

end Loop

namespace Simulator

/-- A machine that was built, between two ticks. -/
structure Primed (s : Simulator) : Prop where
  wired : s.Wired
  sorted : s.topology.Sorted
  unresolved : ∀ x ∈ s.shafts, x.ready = false

theorem unresolved_conclude (s : Simulator) (r : Tick × Option MachineError) :
    ∀ x ∈ (s.conclude r).1.shafts, x.ready = false := by
  intro x hx
  obtain ⟨t, _ | e⟩ := r <;>
  · obtain ⟨y, -, rfl⟩ := Array.mem_map.mp hx
    rfl

theorem kept_primed : Kept Primed where
  step s h := by
    refine ⟨kept_wired.step s h.wired, ?_, ?_⟩ <;> rw [step_eq]
    · rw [topology_conclude]
      exact h.sorted
    · exact s.unresolved_conclude _
  turn s r h := ⟨kept_wired.turn s r h.wired, h.sorted, h.unresolved⟩
  reset s h := by
    refine ⟨kept_wired.reset s h.wired, h.sorted, fun x hx => ?_⟩
    rw [(Array.mem_replicate.mp hx).2]
    rfl

theorem Primed.not_ready {s : Simulator} (h : s.Primed) (x : ShaftId) : ¬ s.shafts.Ready x := by
  rw [Shafts.Ready, Shafts.get, Array.getD_eq_getD_getElem?]
  cases hx : s.shafts[x.index]? with
  | none => simp [ShaftState.rest, ShaftState.ofRotation]
  | some state => simp [h.unresolved state (Array.mem_of_getElem? hx)]

section Loop

variable {s : Simulator}

theorem loop_succ (s : Simulator) (n : Nat) :
    (s.loop n).next? s.topology = none ∧ s.loop (n + 1) = s.loop n ∨
      (s.loop n).next? s.topology = some (s.loop (n + 1)) := by
  rw [loop, Loop.advance]
  cases (s.loop n).next? s.topology with
  | none => exact .inl ⟨rfl, rfl⟩
  | some l => exact .inr rfl

theorem Primed.sound_start (h : s.Primed) : (s.loop 0).Sound s where
  fits := Tick.fits_start s
  nodup := List.nodup_nil
  ready x := by simpa [loop, start] using h.not_ready x
  attributed x hx := absurd hx (h.not_ready x)
  inRange x hx := by simp [loop, start] at hx
  asked := rfl

theorem Primed.sound_loop (h : s.Primed) (n : Nat) : (s.loop n).Sound s := by
  induction n with
  | zero => exact h.sound_start
  | succ n ih =>
    rcases s.loop_succ n with ⟨-, he⟩ | hn
    · rwa [he]
    · exact ih.next h.wired hn

theorem extends_loop (s : Simulator) {m n : Nat} (h : m ≤ n) :
    (s.loop m).tick.shafts.Extends (s.loop n).tick.shafts := by
  induction n, h using Nat.le_induction with
  | base => exact .refl _
  | succ n hmn ih =>
    rcases s.loop_succ n with ⟨-, he⟩ | hn
    · rwa [he]
    · exact ih.trans (Loop.extends_next hn)

theorem loop_count (s : Simulator) (n : Nat) : (s.loop n).next? s.topology = none ∨
    (s.loop n).taken.length + (s.loop n).asked.length = n := by
  induction n with
  | zero => exact .inr rfl
  | succ n ih =>
    rcases s.loop_succ n with ⟨hn, he⟩ | hn
    · rw [he]
      exact .inl hn
    · have hcount := ih.resolve_left (by simp [hn])
      exact .inr (by rw [Loop.count_next hn, hcount])

/-- The loop of a tick comes to an end with what the tick ends with. Until then every shaft that
waits is driven, and a shaft comes to wait once at most, when it gets its rotation. No device writes
to a shaft that has one, and a refusal is what the device that was asked has answered. -/
structure Propagates (s : Simulator) : Prop where
  pushes : ∀ n x, (s.loop n).Pushes (s.loop (n + 1)) x ↔
    ¬ (s.loop n).tick.shafts.Ready x ∧ (s.loop (n + 1)).tick.shafts.Ready x
  once : ∀ m n x, (s.loop m).Pushes (s.loop (m + 1)) x → (s.loop n).Pushes (s.loop (n + 1)) x →
    m = n
  driven : ∀ n, ∀ x ∈ (s.loop n).tick.waiting, ∃ id, (s.loop n).tick.shafts.DrivenBy x id
  taken : ∀ n, (s.loop n).taken.length ≤ s.shafts.size
  asked : ∀ n, (s.loop n).asked.length ≤ 1 + s.topology.reactingPorts
  written : ∀ n id d x v, (s.loop n).Asks id d →
    (d.resolve id (s.loop n).tick.shafts).2 = .ok (.write x v) →
      (((s.loop n).tick.shafts.get x).resolve? v (some id)).isSome = true
  refused : ∀ n e, (s.loop n).failure = none → (s.loop (n + 1)).failure = some e →
    ∃ id d, (s.loop n).Asks id d ∧ (d.resolve id (s.loop n).tick.shafts).2 = .error e ∧
      (s.loop (n + 1)).tick.shafts = (s.loop n).tick.shafts ∧
      ∀ x i, e = .duplicateResolution x i →
        i = id ∧ ∃ j ≠ id, (s.loop n).tick.shafts.DrivenBy x j
  ends : (s.loop s.maxTurns).next? s.topology = none ∧
    ((s.loop s.maxTurns).tick, (s.loop s.maxTurns).failure) = s.propagated

theorem Primed.pushes_iff (h : s.Primed) (n : Nat) (x : ShaftId) :
    (s.loop n).Pushes (s.loop (n + 1)) x ↔
      ¬ (s.loop n).tick.shafts.Ready x ∧ (s.loop (n + 1)).tick.shafts.Ready x := by
  rcases s.loop_succ n with ⟨-, he⟩ | hn
  · rw [he, Loop.Pushes]
    simp
  · exact (h.sound_loop n).pushes_iff h.wired hn x

theorem Primed.pushed_once (h : s.Primed) {m n : Nat} {x : ShaftId}
    (hm : (s.loop m).Pushes (s.loop (m + 1)) x) (hn : (s.loop n).Pushes (s.loop (n + 1)) x) :
    n ≤ m := by
  by_contra hlt
  have hready := ((h.pushes_iff m x).mp hm).2
  exact ((h.pushes_iff n x).mp hn).1 ((s.extends_loop (by omega)).ready hready)

theorem Primed.ended (h : s.Primed) : (s.loop s.maxTurns).next? s.topology = none := by
  by_contra hn
  -- One more turn would take up a shaft too many, or ask a device too many.
  have hnext := (s.loop_succ _).resolve_left fun hh => hn hh.1
  have hcount := (s.loop_count _).resolve_left hn
  have hsound := h.sound_loop (s.maxTurns + 1)
  have htaken := hsound.taken_le
  have hasked := hsound.asked_le h.sorted
  have hmore := Loop.count_next hnext
  rw [maxTurns] at *
  omega

theorem Primed.result_loop (h : s.Primed) (n : Nat) : (s.loop n).result s = s.propagated := by
  induction n with
  | zero =>
    have hfits : Tick.Fits s (s.start.ask s.topology.motor).1 :=
      (Tick.fits_start s).happen (.ask s.topology.motor)
    rw [propagated, Tick.propagate_eq]
    simp only [loop, Loop.result, Tick.askAll_cons]
    generalize s.start.ask s.topology.motor = r at hfits
    obtain ⟨t, _ | e⟩ := r
    · have hsize : t.shafts.size = s.shafts.size := hfits.size
      simp only [Tick.andThen, Tick.askAll, hsize]
      rfl
    · rfl
  | succ n ih =>
    rcases s.loop_succ n with ⟨-, he⟩ | hn
    · rw [he, ih]
    · rw [(h.sound_loop n).result_next h.wired hn, ih]

theorem Primed.propagates (h : s.Primed) : s.Propagates where
  pushes := h.pushes_iff
  once m n x hm hn := Nat.le_antisymm (h.pushed_once hn hm) (h.pushed_once hm hn)
  driven n x hx := by
    have hsound := h.sound_loop n
    exact hsound.attributed x ((hsound.ready x).mpr (List.mem_append_right _ hx))
  taken n := (h.sound_loop n).taken_le
  asked n := (h.sound_loop n).asked_le h.sorted
  written n id d x v hd hr := by
    have hready : ((s.loop n).tick.shafts.get x).ready = false := by
      simpa [Shafts.Ready] using (Device.leadsTo_of_resolve hr).2
    simp [ShaftState.resolve?, hready]
  refused n e hf he := by
    rcases s.loop_succ n with ⟨-, heq⟩ | hn
    · rw [heq, hf] at he
      cases he
    · obtain ⟨id, d, hd, hr, hshafts⟩ := (h.sound_loop n).refused h.wired hn he
      refine ⟨id, d, hd, hr, hshafts, ?_⟩
      rintro x i rfl
      exact Device.refused_of_resolve hr
  ends := ⟨h.ended, by rw [← Loop.result_of_next?_eq_none h.ended, h.result_loop]⟩

end Loop

end Simulator

namespace Assembly

theorem Composed.primed {a : Assembly} (h : a.Composed) {s : Simulator} (hs : a.build = .ok s) :
    s.Primed := by
  have hwired := h.wired hs
  obtain ⟨-, topology, ht, rfl⟩ := (build_eq_ok_iff a s).mp hs
  refine ⟨hwired, Topology.sorted_of_build ht, fun x hx => ?_⟩
  rw [(Array.mem_replicate.mp hx).2]
  rfl

/-- Whatever was done with a machine that was built, the loop of its next tick comes to an end. -/
theorem propagation_ends {a : Assembly} (ha : a.Composed) {s : Simulator} (hs : a.build = .ok s)
    (ops : List Operation) : (s.after ops).Propagates :=
  (Simulator.kept_primed.after (ha.primed hs) ops).propagates

/-- The loop ends although the second doubling is refused. -/
theorem propagation_ends_jammed : ∃ s, (ofPieces Piece.jammed).build = .ok s ∧ s.maxTurns = 13 ∧
    (s.loop 13).next? s.topology = none ∧
    (s.loop 13).failure = some (.duplicateResolution ⟨1⟩ ⟨4⟩) := by
  obtain ⟨s, hs, hturns, hfails⟩ : ∃ s, (ofPieces Piece.jammed).build = .ok s ∧ s.maxTurns = 13 ∧
    s.propagated.2 = some (.duplicateResolution ⟨1⟩ ⟨4⟩) := ⟨_, rfl, rfl, rfl⟩
  have hends := (propagation_ends (composed_ofPieces Piece.jammed) hs []).ends
  rw [show (s.after []) = s from rfl, hturns] at hends
  exact ⟨s, hs, hturns, hends.1, (congrArg Prod.snd hends.2).trans hfails⟩

end Assembly

end DifferentialAnalyzer
