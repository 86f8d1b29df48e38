import DifferentialAnalyzer.Proofs.Machine.Arrears
import DifferentialAnalyzer.Proofs.Machine.InRange
import DifferentialAnalyzer.Proofs.Machine.Positions

/-! What the sinks have recorded. A table has one entry for the start and one for every tick since
the last reset, and a dial the sum of what its shaft turned in them, whatever failed in between. -/

namespace DifferentialAnalyzer

/-- The counter with a table of two curves and a dial. -/
def Piece.plotter : List Piece :=
  counter ++ [
    .device "plot" (.outputTable (.ofShafts ⟨0⟩ ⟨1⟩ (some ⟨0⟩) 0.0 1.0 2.0)) (.of_reset_eq rfl),
    .device "dial" (.ofDial ⟨0⟩ 10.0) (.of_reset_eq rfl)]

namespace History

/-- The totals of a shaft from the start on, one for every tick; the first entry is the last of the
list. -/
structure Records (h : History) (initial : Float) (x : ShaftId) (log : List Shafts) : Prop where
  length : h.length = log.length + 1
  first : h.reverse[0]? = some initial
  next : ∀ (k : Nat) (total : Float) (shafts : Shafts), h.reverse[k]? = some total →
    log[k]? = some shafts → h.reverse[k + 1]? = some (total + (shafts.get x).current)

theorem records_singleton (initial : Float) (x : ShaftId) : Records [initial] initial x [] where
  length := rfl
  first := rfl
  next k total shafts _ hk := by cases hk

theorem Records.extend {h : History} {initial : Float} {x : ShaftId} {log : List Shafts}
    (hr : h.Records initial x log) (last : Shafts) :
    (h.extend (last.get x)).Records initial x (log ++ [last]) := by
  have hlength := hr.length
  obtain ⟨total, rest, rfl⟩ := List.exists_cons_of_length_eq_add_one hlength
  have hrev : (total :: rest).reverse.length = log.length + 1 := by
    rw [List.length_reverse, hlength]
  have hrest : rest.reverse.length = log.length := by
    rw [List.length_reverse]
    exact Nat.succ.inj hlength
  have hextend : (History.extend (total :: rest) (last.get x)).reverse =
      (total :: rest).reverse ++ [total + (last.get x).current] := List.reverse_cons
  refine ⟨by simpa [History.extend] using hlength, ?_, fun k v shafts hk hlog => ?_⟩
  · rw [hextend, List.getElem?_append_left (by omega)]
    exact hr.first
  · have hlt := (List.getElem?_eq_some_iff.mp hlog).1
    rw [List.length_append, List.length_singleton] at hlt
    rw [hextend, List.getElem?_append_left (by omega)] at hk
    rw [hextend]
    rcases Nat.lt_or_eq_of_le (Nat.le_of_lt_succ hlt) with hlt | rfl
    · rw [List.getElem?_append_left hlt] at hlog
      rw [List.getElem?_append_left (by omega)]
      exact hr.next k v shafts hk hlog
    · obtain rfl : last = shafts := by simpa using hlog
      rw [List.reverse_cons, ← hrest, List.getElem?_concat_length] at hk
      obtain rfl := Option.some.inj hk
      rw [← hrev, List.getElem?_concat_length]

end History

/-- What a table has recorded in some ticks. -/
structure OutputTable.Records (t : OutputTable) (log : List Shafts) : Prop where
  xs : t.xs.Records t.initialX t.x log
  y1s : t.y1s.Records t.initialY1 t.y1 log
  second : t.y2s.isSome = t.y2.isSome
  y2s : ∀ y2 h, t.y2 = some y2 → t.y2s = some h → h.Records t.initialY2 y2 log

namespace OutputTable

theorem records_start (t : OutputTable) : t.start.Records [] where
  xs := History.records_singleton t.initialX t.x
  y1s := History.records_singleton t.initialY1 t.y1
  second := by simp [start]
  y2s y2 h hy hh := by
    have hy' : t.y2 = some y2 := hy
    have hstart : some [t.initialY2] = some h := by simpa [start, hy'] using hh
    obtain rfl := Option.some.inj hstart
    exact History.records_singleton t.initialY2 y2

theorem Records.record {t : OutputTable} {log : List Shafts} (h : t.Records log) (last : Shafts) :
    (t.record last).Records (log ++ [last]) where
  xs := h.xs.extend last
  y1s := h.y1s.extend last
  second := by
    have hsecond := h.second
    simp only [OutputTable.record]
    cases hy : t.y2 <;> cases hh : t.y2s <;> simp_all
  y2s y2 later hy hh := by
    have hy' : t.y2 = some y2 := hy
    have hsecond := h.second
    rw [hy', Option.isSome_some, Option.isSome_iff_exists] at hsecond
    obtain ⟨before, hbefore⟩ := hsecond
    have hlater : some (before.extend (last.get y2)) = some later := by
      simpa [OutputTable.record, hy', hbefore] using hh
    obtain rfl := Option.some.inj hlater
    exact (h.y2s y2 before hy' hbefore).extend last

end OutputTable

namespace Simulator

/-- The devices are those of `s₀`, and the tick counter and the sinks that were new in it stand as
the log says. -/
structure Recorded (s₀ : Simulator) (log : List Shafts) (s : Simulator) : Prop where
  tick : s.tick = log.length
  fittings : s.devices.map Device.fitting = s₀.devices.map Device.fitting
  tables : ∀ (k : Nat) (x y1 : ShaftId) (y2 : Option ShaftId) (x₀ y₁ y₂ : Float),
    s₀.devices[k]? = some (.outputTable (.ofShafts x y1 y2 x₀ y₁ y₂)) →
      ∃ t, s.devices[k]? = some (.outputTable t) ∧ t.start = .ofShafts x y1 y2 x₀ y₁ y₂ ∧
        t.Records log
  dials : ∀ (k : Nat) (shaft : ShaftId) (initial : Float),
    s₀.devices[k]? = some (.ofDial shaft initial) →
      s.devices[k]? = some (.dial ⟨shaft, initial, (turns shaft log).foldl (· + ·) initial⟩)

section Sink

variable {s : Simulator} {k : Nat} {d : Device}

/-- A sink records the shafts as a successful tick leaves them. -/
theorem Wired.sink_step (h : s.Wired) (hok : s.step.2 = none) (hsink : d.kind.isSink = true)
    (hd : s.devices[k]? = some d) : s.step.1.devices[k]? = some (d.commit s.step.1.shafts) := by
  have hpropagated := (Tick.Fits.propagated h).2.sinks k d hsink hd
  rw [(step_of_ok hok).2, Array.getElem?_map, hpropagated]
  rfl

theorem Wired.sink_abort (h : s.Wired) {e : MachineError} (he : s.step.2 = some e)
    (hsink : d.kind.isSink = true) (hd : s.devices[k]? = some d) :
    s.step.1.devices[k]? = some d := by
  have hpropagated := (Tick.Fits.propagated h).2.sinks k d hsink hd
  have hrollback : d.rollback = d := by
    cases d with
    | outputTable t => rfl
    | dial d => rfl
    | _ => cases hsink
  rw [step_of_error he, Array.getElem?_map, hpropagated, Option.map_some, hrollback]

theorem sink_turn (r : Float) (hsink : d.kind.isSink = true) (hd : s.devices[k]? = some d) :
    (s.withRotation r).devices[k]? = some d := by
  have hturned : turned r d = d := by
    cases d with
    | outputTable t => rfl
    | dial d => rfl
    | _ => cases hsink
  rw [withRotation, Array.getElem?_modify, hd]
  split
  · rw [Option.map_some, hturned]
  · rfl

theorem device_reset (hd : s.devices[k]? = some d) : s.reset.devices[k]? = some d.reset := by
  simp [Simulator.reset, hd]

end Sink

section Recorded

variable {s₀ s : Simulator} {log : List Shafts}

theorem recorded_self (htick : s₀.tick = 0) : s₀.Recorded [] s₀ where
  tick := htick
  fittings := rfl
  tables _ _ _ _ _ _ _ hk := ⟨_, hk, rfl, OutputTable.records_start _⟩
  dials _ _ _ hk := hk

theorem Recorded.step (h : s₀.Recorded log s) (hs : s.Wired) (hok : s.step.2 = none) :
    s₀.Recorded (log ++ [s.step.1.shafts]) s.step.1 where
  tick := by
    rw [(step_of_ok hok).2, List.length_append, h.tick]
    rfl
  fittings := hs.fittings_step.trans h.fittings
  tables k x y1 y2 x₀ y₁ y₂ hk := by
    obtain ⟨t, ht, hstart, hrecords⟩ := h.tables k x y1 y2 x₀ y₁ y₂ hk
    exact ⟨_, hs.sink_step hok rfl ht, hstart, hrecords.record _⟩
  dials k shaft initial hk := by
    rw [hs.sink_step hok rfl (h.dials k shaft initial hk), turns_concat,
      List.foldl_append]
    rfl

theorem Recorded.abort (h : s₀.Recorded log s) (hs : s.Wired) {e : MachineError}
    (he : s.step.2 = some e) : s₀.Recorded log s.step.1 where
  tick := by
    rw [step_of_error he]
    exact h.tick
  fittings := hs.fittings_step.trans h.fittings
  tables k x y1 y2 x₀ y₁ y₂ hk := by
    obtain ⟨t, ht, hstart, hrecords⟩ := h.tables k x y1 y2 x₀ y₁ y₂ hk
    exact ⟨t, hs.sink_abort he rfl ht, hstart, hrecords⟩
  dials k shaft initial hk := hs.sink_abort he rfl (h.dials k shaft initial hk)

theorem Recorded.turn (h : s₀.Recorded log s) (r : Float) :
    s₀.Recorded log (s.withRotation r) where
  tick := h.tick
  fittings := (fittings_turn ..).trans h.fittings
  tables k x y1 y2 x₀ y₁ y₂ hk := by
    obtain ⟨t, ht, hstart, hrecords⟩ := h.tables k x y1 y2 x₀ y₁ y₂ hk
    exact ⟨t, sink_turn r rfl ht, hstart, hrecords⟩
  dials k shaft initial hk := sink_turn r rfl (h.dials k shaft initial hk)

theorem Recorded.reset (h : s₀.Recorded log s) : s₀.Recorded [] s.reset where
  tick := rfl
  fittings := s.fittings_reset.trans h.fittings
  tables k x y1 y2 x₀ y₁ y₂ hk := by
    obtain ⟨t, ht, hstart, -⟩ := h.tables k x y1 y2 x₀ y₁ y₂ hk
    exact ⟨t.start, device_reset ht, hstart, t.records_start⟩
  dials k shaft initial hk := device_reset (h.dials k shaft initial hk)

theorem logged_recorded (s₀ : Simulator) :
    Logged fun _ log s => s.Wired ∧ s₀.Recorded log s where
  step h hok := ⟨kept_wired.step _ h.1, h.2.step h.1 hok⟩
  abort h he := ⟨kept_wired.step _ h.1, h.2.abort h.1 he⟩
  turn r h := ⟨kept_wired.turn _ r h.1, h.2.turn r⟩
  reset h := ⟨kept_wired.reset _ h.1, h.2.reset⟩

end Recorded

/-- Whatever is done with a machine, or with a runner that plays it, its tables have an entry for
the start and one for every tick of the log, and its dials show what their shafts turned in them. -/
theorem recorded {a : Assembly} (ha : a.Composed) {s : Simulator} (hs : a.build = .ok s) :
    (∀ ops, s.Recorded (s.log [] ops) (s.after ops)) ∧
      ∀ clock endPoint calls, let r := Runner.ofSimulator s clock endPoint
        s.Recorded (s.log [] (r.operations calls)) (r.after calls).simulator := by
  have htick : s.tick = 0 := by
    obtain ⟨-, topology, -, rfl⟩ := (Assembly.build_eq_ok_iff a s).mp hs
    rfl
  have hall : ∀ ops, s.Recorded (s.log [] ops) (s.after ops) := fun ops =>
    (@Logged.after _ s false [] s.logged_recorded ⟨ha.wired hs, recorded_self htick⟩ ops).2
  refine ⟨hall, fun clock endPoint calls => ?_⟩
  dsimp only
  rw [Runner.simulator_after]
  exact hall _

/-- The third tick fails, and again when it is tried once more. After a reset the table starts over
and has an entry for each of three ticks. -/
theorem recorded_plotter :
    let ops := [.run 4, .step, .reset, .setMotorRotation 0.25, .run 2, .step]
    ∃ (s : Simulator) (t : OutputTable), (Assembly.ofPieces Piece.plotter).build = .ok s ∧
      (s.after [.run 4, .step]).tick = 2 ∧ (s.log [] ops).length = 3 ∧
      (s.after ops).devices[2]? = some (.outputTable t) ∧ t.Records (s.log [] ops) ∧
      (s.after ops).outputTables.map (·.xs.reverse) = [[0.0, 0.25, 0.5, 0.75]] ∧
      (s.after ops).devices[3]? =
        some (.dial ⟨⟨0⟩, 10.0, (turns ⟨0⟩ (s.log [] ops)).foldl (· + ·) 10.0⟩) := by
  intro ops
  obtain ⟨s, hs, htable, hdial, hfailed, hlog, hxs⟩ : ∃ s : Simulator,
      (Assembly.ofPieces Piece.plotter).build = .ok s ∧
      s.devices[2]? = some (.outputTable (.ofShafts ⟨0⟩ ⟨1⟩ (some ⟨0⟩) 0.0 1.0 2.0)) ∧
      s.devices[3]? = some (.ofDial ⟨0⟩ 10.0) ∧ (s.after [.run 4, .step]).tick = 2 ∧
      (s.log [] ops).length = 3 ∧
      (s.after ops).outputTables.map (·.xs.reverse) = [[0.0, 0.25, 0.5, 0.75]] :=
    ⟨_, rfl, rfl, rfl, by decide +kernel, by decide +kernel, by decide +kernel⟩
  have hrecorded := (recorded (Assembly.composed_ofPieces Piece.plotter) hs).1 ops
  obtain ⟨t, ht, -, hrecords⟩ := hrecorded.tables _ _ _ _ _ _ _ htable
  exact ⟨s, t, hs, hfailed, hlog, ht, hrecords, hxs, hrecorded.dials _ _ _ hdial⟩

end Simulator

end DifferentialAnalyzer
