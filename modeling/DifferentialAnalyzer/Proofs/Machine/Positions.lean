import DifferentialAnalyzer.Proofs.Machine.Determination
import DifferentialAnalyzer.Proofs.Machine.Law
import DifferentialAnalyzer.Proofs.Machine.Renewal

/-! Where disks and pointers stand. The shafts of all ticks since the last reset determine the place
of every integrator's disk and of every table's pointer, whatever failed in between. -/

namespace DifferentialAnalyzer

/-- The rotations of a shaft in some ticks. -/
def turns (x : ShaftId) (log : List Shafts) : List Float :=
  log.map fun shafts => (shafts.get x).current

theorem turns_concat (x : ShaftId) (log : List Shafts) (last : Shafts) :
    turns x (log ++ [last]) = turns x log ++ [(last.get x).current] := by
  rw [turns, List.map_append]
  rfl

/-- Of every tick and the ticks before it `P` holds. -/
def EachTick (P : List Shafts → Shafts → Prop) (log : List Shafts) : Prop :=
  ∀ (j : Nat) (shafts : Shafts), log[j]? = some shafts → P (log.take j) shafts

theorem EachTick.nil {P : List Shafts → Shafts → Prop} : EachTick P [] := by
  intro j shafts hj
  cases hj

theorem EachTick.concat {P : List Shafts → Shafts → Prop} {log : List Shafts} {last : Shafts}
    (h : EachTick P log) (hlast : P log last) : EachTick P (log ++ [last]) := by
  intro j shafts hj
  rcases Nat.lt_trichotomy j log.length with hlt | rfl | hgt
  · rw [List.getElem?_append_left hlt] at hj
    rw [List.take_append_of_le_length (Nat.le_of_lt hlt)]
    exact h j shafts hj
  · obtain rfl : last = shafts := by simpa using hj
    rwa [List.take_left]
  · rw [List.getElem?_eq_none (by simpa using hgt)] at hj
    cases hj

namespace Integrator

/-- The place of the disk after some ticks. In each of them it moves by what the integrand turned in
the tick before, in the first one by nothing. -/
def place (i : Integrator) (log : List Shafts) : Float :=
  (0.0 :: turns i.integrand log).dropLast.foldl (· + ·) i.disk

def signed (i : Integrator) (value : Float) : Float :=
  if i.reversed then -value else value

theorem place_concat (i : Integrator) (log : List Shafts) (last : Shafts) :
    i.place (log ++ [last]) = i.place log + (turns i.integrand log).getLastD 0.0 := by
  have hne : 0.0 :: turns i.integrand log ≠ [] := List.cons_ne_nil _ _
  have hall : (0.0 :: turns i.integrand (log ++ [last])).dropLast =
      0.0 :: turns i.integrand log := by
    rw [turns_concat, ← List.cons_append]
    exact List.dropLast_concat
  rw [place, hall, ← List.dropLast_concat_getLast hne, List.foldl_append, ← place,
    List.getLast_eq_getLastD]
  rfl

/-- How an integrator stands after some ticks, and what its output turned in each of them. The disk
moves only if the variable of integration is one of the shafts that turn. -/
structure Follows (i : Integrator) (turning : ShaftId → Prop) (log : List Shafts) (now : Device) :
    Prop where
  moved : turning i.input → now = .integrator { i with disk := i.place log }
  output : turning i.input → EachTick (fun before shafts => (shafts.get i.output).current =
    i.signed (i.place (before ++ [shafts]) * (shafts.get i.input).current)) log
  still : ¬ turning i.input → now = .integrator i

theorem Follows.exists_disk {i : Integrator} {turning : ShaftId → Prop} {log : List Shafts}
    {now : Device} (h : i.Follows turning log now) : ∃ disk, now = .integrator { i with disk } := by
  by_cases hin : turning i.input
  · exact ⟨_, h.moved hin⟩
  · exact ⟨i.disk, h.still hin⟩

end Integrator

namespace FunctionTable

/-- The place of the pointer after some ticks. -/
def place (t : FunctionTable) (log : List Shafts) : Float :=
  (turns t.input log).foldl (· + ·) t.position

theorem place_concat (t : FunctionTable) (log : List Shafts) (last : Shafts) :
    t.place (log ++ [last]) = t.place log + (last.get t.input).current := by
  rw [place, turns_concat, List.foldl_append]
  rfl

/-- How a table stands after some ticks, and what its output turned in each of them: the change in
height between the two places, both looked up on the curve. -/
structure Follows (t : FunctionTable) (turning : ShaftId → Prop) (log : List Shafts)
    (now : Device) : Prop where
  moved : turning t.input → ∃ level, now = .functionTable { t with position := t.place log, level }
  output : turning t.input → EachTick (fun before shafts => ∃ old new,
    t.curve.eval (t.place before) = .ok old ∧
    t.curve.eval (t.place (before ++ [shafts])) = .ok new ∧
    (shafts.get t.output).current = new - old) log
  still : ¬ turning t.input → ∃ level, now = .functionTable { t with level }
  /-- A level that is recorded is the height at the place of the pointer. -/
  level : now.LevelSound

theorem Follows.exists_position {t : FunctionTable} {turning : ShaftId → Prop}
    {log : List Shafts} {now : Device} (h : t.Follows turning log now) :
    ∃ position level, now = .functionTable { t with position, level } := by
  by_cases hin : turning t.input
  · exact ⟨_, h.moved hin⟩
  · exact ⟨t.position, h.still hin⟩

end FunctionTable

namespace Device

theorem eq_integrator_of_uncached {i : Integrator} {d : Device}
    (h : d.uncached = (Device.integrator i).uncached) : d = .integrator i := by
  cases d with
  | integrator _ => exact h
  | _ => cases h

theorem eq_functionTable_of_uncached {t : FunctionTable} {d : Device}
    (h : d.uncached = (Device.functionTable t).uncached) :
    ∃ level, d = .functionTable { t with level } := by
  cases d with
  | functionTable t' =>
    refine ⟨t'.level, congrArg Device.functionTable ?_⟩
    have he : ({ t' with level := none } : FunctionTable) = { t with level := none } :=
      Device.functionTable.inj h
    calc
      t' = { ({ t' with level := none } : FunctionTable) with level := t'.level } := rfl
      _ = { t with level := t'.level } := by rw [he]
  | _ => cases h

theorem commit_integrator {i : Integrator} (h : i.staged = none) (shafts : Shafts) :
    (Device.integrator i).commit shafts = .integrator i := by
  obtain ⟨input, integrand, output, reversed, initial, disk, staged⟩ := i
  obtain rfl : staged = none := h
  rfl

theorem commit_staged {t : FunctionTable} {x y : Float} (h : t.staged = some (x, y))
    (shafts : Shafts) : (Device.functionTable t).commit shafts =
      .functionTable { t with position := x, level := some y, staged := none } := by
  simp [commit, h]

theorem commit_unstaged {t : FunctionTable} (h : t.staged = none) (shafts : Shafts) :
    (Device.functionTable t).commit shafts = .functionTable t := by
  simp [commit, h]

/-- How an integrator or a table stands after some ticks. -/
def Follows (turning : ShaftId → Prop) (log : List Shafts) : Device → Device → Prop
  | .integrator i, now => i.Follows turning log now
  | .functionTable t, now => t.Follows turning log now
  | _, _ => True

/-- The device before the ticks that count: as it was built, or as the last reset left it. -/
def origin (d : Device) (again : Bool) : Device :=
  if again then d.reset else d

/-- Before the first tick that counts everything is where it was. -/
theorem follows_nil {d : Device} (h : d.LevelSound) (turning : ShaftId → Prop) :
    d.Follows turning [] d := by
  cases d with
  | integrator i => exact ⟨fun _ => rfl, fun _ => .nil, fun _ => rfl⟩
  | functionTable t => exact ⟨fun _ => ⟨t.level, rfl⟩, fun _ => .nil, fun _ => ⟨t.level, rfl⟩, h⟩
  | _ => trivial

section Follows

variable {turning : ShaftId → Prop} {log : List Shafts} {d now : Device}

/-- The recorded level apart, only the state of a device counts. -/
theorem Follows.congr (h : d.Follows turning log now) {later : Device}
    (he : later.uncached = now.uncached) (hl : later.LevelSound) :
    d.Follows turning log later := by
  cases d with
  | integrator i =>
    have heq : ∀ j : Integrator, now = .integrator j → later = .integrator j :=
      fun j hj => eq_integrator_of_uncached (hj ▸ he)
    exact ⟨fun hin => heq _ (h.moved hin), h.output, fun hin => heq _ (h.still hin)⟩
  | functionTable t =>
    have heq : ∀ u : FunctionTable, (∃ level, now = .functionTable { u with level }) →
        ∃ level, later = .functionTable { u with level } := by
      rintro u ⟨level, rfl⟩
      exact eq_functionTable_of_uncached (t := { u with level }) he
    exact ⟨fun hin => heq { t with position := t.place log } (h.moved hin), h.output,
      fun hin => heq t (h.still hin), hl⟩
  | _ => trivial

theorem Follows.turned (h : d.Follows turning log now) (r : Float) :
    d.Follows turning log (Simulator.turned r now) := by
  cases d with
  | integrator i =>
    obtain ⟨disk, rfl⟩ := Integrator.Follows.exists_disk h
    exact h
  | functionTable t =>
    obtain ⟨position, level, rfl⟩ := FunctionTable.Follows.exists_position h
    exact h
  | _ => trivial

/-- A reset starts a new log. -/
theorem Follows.reset (h : d.Follows turning log now) :
    d.reset.Follows turning [] now.reset := by
  have hnil := follows_nil d.atRest_reset.2 turning
  cases d with
  | integrator i =>
    obtain ⟨disk, rfl⟩ := Integrator.Follows.exists_disk h
    exact hnil
  | functionTable t =>
    obtain ⟨position, level, rfl⟩ := FunctionTable.Follows.exists_position h
    exact hnil
  | _ => trivial

end Follows

theorem reset_origin (d : Device) (again : Bool) : (d.origin again).reset = d.origin true := by
  cases again with
  | false => rfl
  | true => cases d <;> rfl

theorem New.origin_eq {d : Device} (h : d.New) (again : Bool) : d.origin again = d.reset := by
  cases again with
  | false => exact h.reset_eq.symm
  | true => rfl

end Device

namespace Simulator

/-- The shafts after each of some ticks, up to the first one that fails. -/
def runLog : Nat → Simulator → List Shafts
  | 0, _ => []
  | count + 1, s =>
    match s.step with
    | (s', none) => s'.shafts :: runLog count s'
    | _ => []

/-- What an operation makes of the log of the ticks since the last reset. -/
def logged (s : Simulator) (past : List Shafts) : Operation → List Shafts
  | .step => past ++ s.runLog 1
  | .run count => past ++ s.runLog count
  | .setMotorRotation _ => past
  | .reset => []

/-- The shafts after each tick since the last reset, if `past` has those of the ticks before. -/
def log (s : Simulator) (past : List Shafts) : List Operation → List Shafts
  | [] => past
  | op :: ops => (s.perform op).1.log (s.logged past op) ops

end Simulator

def Operation.isReset : Operation → Bool
  | .step => false
  | .run _ => false
  | .setMotorRotation _ => false
  | .reset => true

namespace Simulator

section Step

variable {s : Simulator} {k : Nat}

/-- A tick without an error is published by the step. -/
theorem step_of_ok (hok : s.step.2 = none) : s.propagated.2 = none ∧
    s.step.1 = ⟨s.topology,
      s.propagated.1.devices.map (Device.commit (s.propagated.1.shafts.map ShaftState.commit)),
      s.propagated.1.shafts.map ShaftState.commit, s.tick + 1⟩ := by
  rw [step_eq, conclude_snd] at hok
  refine ⟨hok, ?_⟩
  rw [step_eq]
  generalize s.propagated = r at hok
  obtain ⟨t, err⟩ := r
  obtain rfl : err = none := hok
  rfl

/-- After an error the step takes the tick back. -/
theorem step_of_error {e : MachineError} (he : s.step.2 = some e) : s.step.1 =
    ⟨s.topology, s.propagated.1.devices.map Device.rollback,
      s.propagated.1.shafts.map ShaftState.rollback, s.tick⟩ := by
  rw [step_eq, conclude_snd] at he
  rw [step_eq]
  generalize s.propagated = r at he
  obtain ⟨t, err⟩ := r
  obtain rfl : err = some e := he
  rfl

theorem current_step (hok : s.step.2 = none) (x : ShaftId) :
    (s.step.1.shafts.get x).current = (s.propagated.1.shafts.get x).next := by
  rw [(step_of_ok hok).2, Shafts.get_map rfl]
  rfl

/-- What a device is committed from. -/
theorem AtRest.stands (hs : s.AtRest) (hok : s.step.2 = none) {d : Device}
    (hd : s.devices[k]? = some d) : ∃ now, d.Stands ⟨k⟩ s.propagated.1.shafts now ∧
      s.step.1.devices[k]? = some (now.commit s.step.1.shafts) := by
  obtain ⟨now, hnow, hst⟩ := ((scheduled_propagated hs).ended hs).running.stands k d hd
  refine ⟨now, hst, ?_⟩
  rw [(step_of_ok hok).2, Array.getElem?_map, hnow]
  rfl

/-- A device with one path resolves the target of it, if its need is one of the shafts that turn. -/
theorem AtRest.outputLaw (hs : s.AtRest) (hok : s.step.2 = none) {d : Device}
    (hd : s.devices[k]? = some d) {input output : ShaftId} (hp : d.paths = [⟨[input], output⟩]) :
    (s.Reached input → (∃ x, s.propagated.1.shafts.DrivenBy x ⟨k⟩) ∧
      d.rotation s.propagated.1.shafts output =
        .ok (s.propagated.1.shafts.get output).next) ∧
    (¬ s.Reached input → ∀ x, ¬ s.propagated.1.shafts.DrivenBy x ⟨k⟩) := by
  have hend := (scheduled_propagated hs).ended hs
  have hfired := hend.fired (step_of_ok hok).1 hd
  obtain ⟨hdriven, hvalue⟩ := hfired.outputLaw hp
    (f := fun _ => d.rotation s.propagated.1.shafts output) rfl
  have hready := hend.ready_iff (step_of_ok hok).1 (x := input)
  refine ⟨fun hin => ⟨⟨output, hdriven.mpr (hready.mpr hin)⟩, hvalue (hready.mpr hin)⟩,
    fun hin x hx => hin (hready.mp ?_)⟩
  obtain ⟨p, hm, -, ho, -⟩ := hfired.path x hx
  rw [hp, List.mem_singleton] at hm
  exact ho input (by simp [hm])

theorem AtRest.staged_integrator (hs : s.AtRest) {i : Integrator}
    (hd : s.devices[k]? = some (.integrator i)) : i.staged = none := by
  have hrest := (hs.devices _ (Array.mem_of_getElem? hd)).1
  have he : ({ i with staged := none } : Integrator) = i := by
    simpa [Device.rollback] using hrest
  rw [← he]

theorem AtRest.staged_functionTable (hs : s.AtRest) {t : FunctionTable}
    (hd : s.devices[k]? = some (.functionTable t)) : t.staged = none := by
  have hrest := (hs.devices _ (Array.mem_of_getElem? hd)).1
  have he : ({ t with staged := none } : FunctionTable) = t := by
    simpa [Device.rollback] using hrest
  rw [← he]

/-- A successful tick moves a disk by what the integrand turned in the tick before. -/
theorem AtRest.integrator_step (hs : s.AtRest) (hok : s.step.2 = none) {i : Integrator}
    (hd : s.devices[k]? = some (.integrator i)) :
    (s.Reached i.input →
      s.step.1.devices[k]? =
        some (.integrator { i with disk := i.disk + (s.shafts.get i.integrand).current }) ∧
      (s.step.1.shafts.get i.output).current =
        i.signed ((i.disk + (s.shafts.get i.integrand).current) *
          (s.step.1.shafts.get i.input).current)) ∧
    (¬ s.Reached i.input → s.step.1.devices[k]? = some (.integrator i)) := by
  have hcurrent := ((scheduled_propagated hs).ended hs).running.current i.integrand
  obtain ⟨hlaw, hidle⟩ := hs.outputLaw hok hd rfl
  obtain ⟨now, hst, hnow⟩ := hs.stands hok hd
  have hstaged := hs.staged_integrator hd
  refine ⟨fun hin => ?_, fun hin => ?_⟩
  · obtain ⟨hdriven, hvalue⟩ := hlaw hin
    obtain rfl := Device.eq_integrator_of_uncached (hst.moved hdriven)
    have hturn := Except.ok.inj hvalue
    rw [← current_step hok, ← current_step hok, hcurrent] at hturn
    refine ⟨?_, hturn.symm⟩
    rw [hnow, ← hcurrent]
    simp [Device.commit, hstaged]
  · obtain rfl := Device.eq_integrator_of_uncached (hst.unmoved (hidle hin))
    rw [hnow, Device.commit_integrator hstaged]

/-- A successful tick moves a pointer by what the input turns, and the output by what that changes
in height. -/
theorem AtRest.functionTable_step (hs : s.AtRest) (hok : s.step.2 = none) {t : FunctionTable}
    (hd : s.devices[k]? = some (.functionTable t)) :
    (s.Reached t.input → ∃ old new, t.curve.eval t.position = .ok old ∧
      t.curve.eval (t.position + (s.step.1.shafts.get t.input).current) = .ok new ∧
      (s.step.1.shafts.get t.output).current = new - old ∧
      s.step.1.devices[k]? = some (.functionTable
        { t with
          position := t.position + (s.step.1.shafts.get t.input).current
          level := some new })) ∧
    (¬ s.Reached t.input → ∃ level,
      s.step.1.devices[k]? = some (.functionTable { t with level })) := by
  obtain ⟨hlaw, hidle⟩ := hs.outputLaw hok hd rfl
  obtain ⟨now, hst, hnow⟩ := hs.stands hok hd
  have hstaged := hs.staged_functionTable hd
  refine ⟨fun hin => ?_, fun hin => ?_⟩
  · obtain ⟨hdriven, hvalue⟩ := hlaw hin
    obtain ⟨old, hold, hvalue⟩ := bind_eq_ok_iff.mp hvalue
    obtain ⟨new, hnew, hvalue⟩ := bind_eq_ok_iff.mp hvalue
    have hturn := Except.ok.inj hvalue
    obtain ⟨level, rfl⟩ := Device.eq_functionTable_of_uncached (hst.moved hdriven)
    have hpending : (t.curve.eval
        (t.position + (s.propagated.1.shafts.get t.input).next)).toOption.map
          (t.position + (s.propagated.1.shafts.get t.input).next, ·) =
        some (t.position + (s.propagated.1.shafts.get t.input).next, new) := by
      rw [hnew]
      rfl
    refine ⟨old, new, hold, ?_, ?_, ?_⟩
    · rw [current_step hok, hnew]
    · rw [current_step hok, hturn]
    · rw [hnow, Device.commit_staged hpending, current_step hok, hstaged]
  · obtain ⟨level, rfl⟩ := Device.eq_functionTable_of_uncached (hst.unmoved (hidle hin))
    exact ⟨level, by rw [hnow, Device.commit_unstaged (t := { t with level }) hstaged]⟩

/-- A successful tick goes on with the places and adds itself to the log. -/
theorem AtRest.follows_step (hs : s.AtRest) (hok : s.step.2 = none) {log : List Shafts}
    (hlatest : ∀ x, (s.shafts.get x).current = (turns x log).getLastD 0.0) {d now : Device}
    (hnow : s.devices[k]? = some now) (h : d.Follows s.Reached log now) :
    ∃ next, s.step.1.devices[k]? = some next ∧
      d.Follows s.Reached (log ++ [s.step.1.shafts]) next := by
  obtain ⟨stood, -, hnext⟩ := hs.stands hok hnow
  refine ⟨_, hnext, ?_⟩
  cases d with
  | integrator i =>
    by_cases hin : s.Reached i.input
    · obtain rfl := h.moved hin
      obtain ⟨hdevice, hturn⟩ := (hs.integrator_step hok hnow).1 hin
      rw [hlatest, ← i.place_concat log s.step.1.shafts] at hdevice hturn
      obtain heq := Option.some.inj (hnext.symm.trans hdevice)
      exact ⟨fun _ => heq, fun _ => (h.output hin).concat hturn, fun hn => absurd hin hn⟩
    · obtain rfl := h.still hin
      have hdevice := (hs.integrator_step hok hnow).2 hin
      obtain heq := Option.some.inj (hnext.symm.trans hdevice)
      exact ⟨fun hn => absurd hn hin, fun hn => absurd hn hin, fun _ => heq⟩
  | functionTable t =>
    have hlevel := (hs.step.rest.devices _ (Array.mem_of_getElem? hnext)).2
    by_cases hin : s.Reached t.input
    · obtain ⟨level, rfl⟩ := h.moved hin
      obtain ⟨old, new, hold, hnew, hturn, hdevice⟩ := (hs.functionTable_step hok hnow).1 hin
      rw [← t.place_concat log s.step.1.shafts] at hnew hdevice
      obtain heq := Option.some.inj (hnext.symm.trans hdevice)
      exact ⟨fun _ => ⟨_, heq⟩, fun _ => (h.output hin).concat ⟨old, new, hold, hnew, hturn⟩,
        fun hn => absurd hin hn, hlevel⟩
    · obtain ⟨level, rfl⟩ := h.still hin
      obtain ⟨level', hdevice⟩ := (hs.functionTable_step hok hnow).2 hin
      obtain heq := Option.some.inj (hnext.symm.trans hdevice)
      exact ⟨fun hn => absurd hn hin, fun hn => absurd hn hin, fun _ => ⟨level', heq⟩, hlevel⟩
  | _ => trivial

end Step

theorem current_replicate (count : Nat) (x : ShaftId) :
    (Shafts.get (Array.replicate count .rest) x).current = 0.0 := by
  rw [Shafts.get, Array.getD_eq_getD_getElem?, Array.getElem?_replicate]
  split <;> rfl

theorem run_one (s : Simulator) : s.run 1 = s.step := by
  rw [run_succ]
  cases hs : s.step with
  | mk s' err => cases err <;> rfl

/-- What a tick that succeeds, one that fails, a change of the motor's rotation and a reset keep of
a machine, of the log of its ticks and of whether it was reset. -/
structure Logged (P : Bool → List Shafts → Simulator → Prop) : Prop where
  step : ∀ {again log s}, P again log s → s.step.2 = none →
    P again (log ++ [s.step.1.shafts]) s.step.1
  abort : ∀ {again log s e}, P again log s → s.step.2 = some e → P again log s.step.1
  turn : ∀ {again log s} r, P again log s → P again log (s.withRotation r)
  reset : ∀ {again log s}, P again log s → P true [] s.reset

section Logged

variable {P : Bool → List Shafts → Simulator → Prop} {s : Simulator} {again : Bool}
  {log : List Shafts}

theorem Logged.run (hP : Logged P) (h : P again log s) (count : Nat) :
    P again (log ++ s.runLog count) (s.run count).1 := by
  induction count generalizing s log with
  | zero =>
    rw [runLog, List.append_nil]
    exact h
  | succ count ih =>
    have hstep := hP.step h
    have habort := @Logged.abort P hP again log s
    rw [runLog, run_succ]
    cases hs : s.step with
    | mk s' err =>
      rw [hs] at hstep habort
      cases err with
      | none => simpa using ih (hstep rfl)
      | some e => simpa using habort h rfl

theorem Logged.perform (hP : Logged P) (h : P again log s) (op : Operation) :
    P (again || op.isReset) (s.logged log op) (s.perform op).1 := by
  cases op with
  | step =>
    have hrun := hP.run h 1
    rw [run_one] at hrun
    rwa [Operation.isReset, Bool.or_false]
  | run count =>
    rw [Operation.isReset, Bool.or_false]
    exact hP.run h count
  | setMotorRotation rotation =>
    rw [Operation.isReset, Bool.or_false, Simulator.perform, setMotorRotation_eq]
    cases requireFinite "motor rotation" rotation with
    | ok r => exact hP.turn r h
    | error e => exact h
  | reset =>
    rw [Operation.isReset, Bool.or_true]
    exact hP.reset h

theorem Logged.after (hP : Logged P) (h : P again log s) (ops : List Operation) :
    P (again || ops.any Operation.isReset) (s.log log ops) (s.after ops) := by
  induction ops generalizing s log again with
  | nil =>
    rw [List.any_nil, Bool.or_false]
    exact h
  | cons op ops ih =>
    rw [List.any_cons, ← Bool.or_assoc]
    exact ih (hP.perform h op)

end Logged

/-- The machine stands as the log says, counted from the start or from a reset. -/
structure Followed (s₀ : Simulator) (again : Bool) (log : List Shafts) (s : Simulator) : Prop where
  sameMake : s₀.SameMake s
  tick : s.tick = log.length
  latest : ∀ x, (s.shafts.get x).current = (turns x log).getLastD 0.0
  devices : ∀ (k : Nat) (d : Device), s₀.devices[k]? = some d →
    ∃ now, s.devices[k]? = some now ∧ (d.origin again).Follows s₀.Reached log now

theorem Built.followed {s : Simulator} (h : s.Built) : s.Followed false [] s where
  sameMake := h.atRest.sameMake
  tick := h.tick_eq
  latest x := by
    obtain ⟨pieces, hb⟩ := h
    obtain ⟨-, topology, -, rfl⟩ := (Assembly.build_eq_ok_iff _ s).mp hb
    exact current_replicate topology.shafts.size x
  devices k d hd :=
    ⟨d, hd, Device.follows_nil (h.atRest.devices d (Array.mem_of_getElem? hd)).2 s.Reached⟩

section Followed

variable {s₀ s : Simulator} {again : Bool} {log : List Shafts}

theorem Followed.reached_eq (h : s₀.Followed again log s) : s.Reached = s₀.Reached :=
  funext fun _ => propext ⟨.of_fittings h.sameMake.continues.fittings.symm,
    .of_fittings h.sameMake.continues.fittings⟩

theorem Followed.step (h : s₀.Followed again log s) (hok : s.step.2 = none) :
    s₀.Followed again (log ++ [s.step.1.shafts]) s.step.1 where
  sameMake := s₀.kept_sameMake.step s h.sameMake
  tick := by
    rw [(step_of_ok hok).2, List.length_append, h.tick]
    rfl
  latest x := by simp [turns]
  devices k d hd := by
    obtain ⟨now, hnow, hfollows⟩ := h.devices k d hd
    rw [← h.reached_eq] at hfollows ⊢
    exact h.sameMake.continues.rest.follows_step hok h.latest hnow hfollows

/-- A failed tick is not in the log, and nothing has moved. -/
theorem Followed.abort (h : s₀.Followed again log s) {e : MachineError}
    (he : s.step.2 = some e) : s₀.Followed again log s.step.1 := by
  obtain ⟨-, hdevices, hshafts, htick⟩ :=
    visible_eq_iff.mp (h.sameMake.continues.rest.alike_step he).visible
  refine ⟨s₀.kept_sameMake.step s h.sameMake, htick.trans h.tick, fun x => ?_, fun k d hd => ?_⟩
  · rw [hshafts, h.latest]
  · obtain ⟨now, hnow, hfollows⟩ := h.devices k d hd
    have hk := congrArg (·[k]?) hdevices
    simp only [Array.getElem?_map, hnow, Option.map_some, Option.map_eq_some_iff] at hk
    obtain ⟨later, hlater, heq⟩ := hk
    have hlevel := (h.sameMake.continues.rest.step.rest.devices _ (Array.mem_of_getElem? hlater)).2
    exact ⟨later, hlater, hfollows.congr heq hlevel⟩

theorem Followed.turn (h : s₀.Followed again log s) (r : Float) :
    s₀.Followed again log (s.withRotation r) := by
  refine ⟨s₀.kept_sameMake.turn s r h.sameMake, h.tick, h.latest, fun k d hd => ?_⟩
  obtain ⟨now, hnow, hfollows⟩ := h.devices k d hd
  rw [withRotation, Array.getElem?_modify, hnow]
  split
  · exact ⟨_, rfl, hfollows.turned r⟩
  · exact ⟨now, rfl, hfollows⟩

theorem Followed.reset (h : s₀.Followed again log s) : s₀.Followed true [] s.reset where
  sameMake := s₀.kept_sameMake.reset s h.sameMake
  tick := rfl
  latest x := current_replicate s.shafts.size x
  devices k d hd := by
    obtain ⟨now, hnow, hfollows⟩ := h.devices k d hd
    refine ⟨now.reset, by simp [Simulator.reset, hnow], ?_⟩
    rw [← d.reset_origin again]
    exact hfollows.reset

theorem logged_followed (s₀ : Simulator) : Logged s₀.Followed where
  step h hok := h.step hok
  abort h he := h.abort he
  turn r h := h.turn r
  reset h := h.reset

end Followed

/-- Whatever is done with a machine, the shafts of its ticks since the last reset say where its
disks and pointers stand and what they made the outputs turn. Counting starts at the initial places
after a reset, and with new devices from the beginning. -/
theorem positions {s : Simulator} (h : s.Built) (ops : List Operation) :
    (s.after ops).tick = (s.log [] ops).length ∧
    ∀ (k : Nat) (d : Device), s.devices[k]? = some d →
      (d.New → d.origin (ops.any Operation.isReset) = d.reset) ∧
      ∃ now, (s.after ops).devices[k]? = some now ∧
        (d.origin (ops.any Operation.isReset)).Follows s.Reached (s.log [] ops) now := by
  have hfollowed := s.logged_followed.after h.followed ops
  exact ⟨hfollowed.tick, fun k d hd =>
    ⟨fun hnew => hnew.origin_eq _, hfollowed.devices k d hd⟩⟩

/-- The disk of the tripler has moved by 0, 2 and -1 since the reset. -/
theorem positions_tripler :
    let ops := [.run 4, .reset, .step, .setMotorRotation (-0.5), .run 2]
    ∃ (s : Simulator) (i : Integrator) (now : Device), s.Built ∧
      s.devices[3]? = some (.integrator i) ∧ i.initial = 0.5 ∧ s.Reached i.input ∧
      (0.0 :: turns i.integrand (s.log [] ops)).dropLast = [0.0, 2.0, -1.0] ∧
      (s.after ops).devices[3]? = some now ∧
      ((Device.integrator i).origin true).Follows s.Reached (s.log [] ops) now := by
  intro ops
  have hb : ∃ (s : Simulator) (i : Integrator), (Assembly.ofPieces Piece.tripler).build = .ok s ∧
      s.devices[3]? = some (.integrator i) ∧ i.initial = 0.5 ∧
      (∃ d : Device, s.devices[0]? = some d ∧ ⟨[], i.input⟩ ∈ d.paths) ∧
      (0.0 :: turns i.integrand (s.log [] ops)).dropLast = [0.0, 2.0, -1.0] :=
    ⟨_, _, rfl, rfl, rfl, ⟨_, rfl, List.mem_singleton.mpr rfl⟩, by decide +kernel⟩
  obtain ⟨s, i, hs, hi, hinitial, ⟨d, hd, hp⟩, hlog⟩ := hb
  have hmotor : s.devices[(⟨0⟩ : DeviceId).index]? = some d := hd
  obtain ⟨-, now, hnow, hfollows⟩ := (positions ⟨_, hs⟩ ops).2 3 _ hi
  exact ⟨s, i, now, ⟨_, hs⟩, hi, hinitial, .intro hmotor hp (by simp), hlog, hnow, hfollows⟩

end Simulator

end DifferentialAnalyzer
