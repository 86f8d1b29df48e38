import DifferentialAnalyzer.Proofs.Machine.Calling
import DifferentialAnalyzer.Proofs.WholeNumbers

/-! A clock that is called again and again. What it has handed out since it was last set back is the
largest number of ticks that there were at any of the calls, so that none is lost and none is handed
out twice. -/

namespace DifferentialAnalyzer

namespace Clock

inductive Call where
  | advance (seconds : Float)
  | reset

def perform (c : Clock) : Call → Clock
  | .advance seconds => (c.advance seconds).1
  | .reset => c.reset

def after (c : Clock) (calls : List Call) : Clock :=
  calls.foldl perform c

/-- A call to let time pass, with the time that has elapsed by then and the ticks handed out. -/
structure Advance where
  seconds : Float
  elapsed : Float
  count : Nat

def logged (c : Clock) (past : List Advance) : Call → List Advance
  | .advance seconds =>
    past ++ [⟨seconds, (c.advance seconds).1.elapsed, (c.advance seconds).2⟩]
  | .reset => []

/-- The advances since the last reset, if `past` has those of the calls before. -/
def log (c : Clock) (past : List Advance) : List Call → List Advance
  | [] => past
  | call :: calls => (c.perform call).log (c.logged past call) calls

/-- So much time can pass. -/
def Passes (seconds : Float) : Prop :=
  seconds.isFinite = true ∧ 0.0 < seconds

instance (seconds : Float) : Decidable (Passes seconds) :=
  inferInstanceAs (Decidable (_ ∧ _))

/-- All ticks of a period up to a time: the quotient and the slack for it, rounded down, but no more
than a word of 64 bits counts. -/
def ticksBy (period elapsed : Float) : Nat :=
  Binary64.saturated (elapsed / period + 1e-9 * largerOf (elapsed / period) 1.0)

theorem total_eq (c : Clock) : c.total = ticksBy c.period c.elapsed :=
  Binary64.toNat_toUInt64_eq _

theorem ticksBy_lt (period elapsed : Float) : ticksBy period elapsed < 2 ^ 64 := by
  rw [ticksBy, Binary64.saturated]
  split
  · omega
  · split <;> omega

/-- The clock when time has passed but nothing was handed out. -/
def pass (c : Clock) (seconds : Float) : Clock :=
  if Passes seconds then { c with elapsed := c.elapsed + seconds } else c

section Pass

variable {c : Clock} {seconds : Float}

theorem period_pass : (c.pass seconds).period = c.period := by
  rw [pass]
  split <;> rfl

theorem taken_pass : (c.pass seconds).taken = c.taken := by
  rw [pass]
  split <;> rfl

theorem advance_eq (c : Clock) (seconds : Float) : c.advance seconds =
    ({ c.pass seconds with taken := max c.taken (c.pass seconds).total },
      (c.pass seconds).due) := by
  have hiff : (seconds.isFinite && seconds > 0.0) = true ↔ Passes seconds := by simp [Passes]
  have hpass : (if seconds.isFinite && seconds > 0.0 then { c with elapsed := c.elapsed + seconds }
      else c) = c.pass seconds := by
    rw [pass]
    by_cases hp : Passes seconds
    · rw [if_pos (hiff.mpr hp), if_pos hp]
    · rw [if_neg (mt hiff.mp hp), if_neg hp]
  have hmax : (c.pass seconds).taken + (c.pass seconds).due =
      max c.taken (c.pass seconds).total := by
    rw [due, taken_pass]
    omega
  rw [advance, hpass, hmax]

end Pass

/-- What the clock has handed out after the advances in the log. -/
structure Tallied (period : Float) (log : List Advance) (c : Clock) : Prop where
  kept : c.period = period
  elapsed : c.elapsed = ((log.map (·.seconds)).filter Passes).foldl (· + ·) 0.0
  sum : c.taken = (log.map (·.count)).sum
  most : c.taken = (log.map fun a => ticksBy period a.elapsed).foldl max 0
  due : log ≠ [] → c.due = 0
  word : c.taken < 2 ^ 64

section Tallied

variable {period : Float} {log : List Advance} {c : Clock}

theorem due_advance (c : Clock) (seconds : Float) : (c.advance seconds).1.due = 0 := by
  rw [advance_eq]
  exact Nat.sub_eq_zero_of_le (Nat.le_max_right ..)

theorem Tallied.advance (h : Tallied period log c) (seconds : Float) :
    Tallied period (c.logged log (.advance seconds)) (c.advance seconds).1 := by
  have hperiod : (c.pass seconds).period = period := period_pass.trans h.kept
  have htotal : (c.pass seconds).total = ticksBy period (c.pass seconds).elapsed := by
    rw [total_eq, hperiod]
  refine ⟨?_, ?_, ?_, ?_, fun _ => due_advance c seconds, ?_⟩
  · rw [advance_eq]
    exact hperiod
  · rw [advance_eq]
    simp only [logged, List.map_append, List.map_cons, List.map_nil, List.filter_append,
      List.foldl_append, ← h.elapsed]
    rw [pass]
    by_cases hp : Passes seconds <;> simp [hp]
  · rw [taken_advance, h.sum]
    simp [logged]
  · simp only [logged, List.map_append, List.map_cons, List.map_nil, List.foldl_append,
      List.foldl_cons, List.foldl_nil, ← h.most]
    rw [advance_eq]
    simp only [htotal]
  · have hlt := ticksBy_lt period (c.pass seconds).elapsed
    have hword := h.word
    rw [advance_eq]
    simp only [htotal]
    omega

theorem Tallied.reset (h : Tallied period log c) : Tallied period [] c.reset :=
  ⟨h.kept, rfl, rfl, rfl, fun hne => absurd rfl hne, Nat.two_pow_pos 64⟩

theorem Tallied.perform (h : Tallied period log c) (call : Call) :
    Tallied period (c.logged log call) (c.perform call) := by
  cases call with
  | advance seconds => exact h.advance seconds
  | reset => exact h.reset

theorem Tallied.after (h : Tallied period log c) (calls : List Call) :
    Tallied period (c.log log calls) (c.after calls) := by
  induction calls generalizing c log with
  | nil => exact h
  | cons call calls ih => exact ih (h.perform call)

theorem AtZero.tallied (h : c.AtZero) : Tallied c.period [] c :=
  ⟨rfl, h.1, h.2, h.2, fun hne => absurd rfl hne, h.2 ▸ Nat.two_pow_pos 64⟩

end Tallied

/-- What letting time pass once more does after the advances in the log. -/
structure Settles (log : List Advance) (c : Clock) (seconds : Float) : Prop where
  due : (c.advance seconds).1.due = 0
  taken : (c.advance seconds).1.taken = c.taken + (c.advance seconds).2
  word : c.taken + (c.advance seconds).2 < 2 ^ 64
  elapsed : ¬ Passes seconds → (c.advance seconds).1.elapsed = c.elapsed
  nothing : ¬ Passes seconds → log ≠ [] → (c.advance seconds).2 = 0

theorem Tallied.settles {period : Float} {log : List Advance} {c : Clock}
    (h : Tallied period log c) (seconds : Float) : c.Settles log seconds where
  due := due_advance c seconds
  taken := taken_advance c seconds
  word := taken_advance c seconds ▸ (h.advance seconds).word
  elapsed hp := by
    rw [advance_eq, pass, if_neg hp]
  nothing hp hne := by
    rw [advance_eq, pass, if_neg hp]
    exact h.due hne

/-- However time passes, a clock hands out every tick once. -/
theorem handed_out {c : Clock} (hc : c.New) (calls : List Call) :
    (c.after calls).Tallied c.period (c.log [] calls) ∧
      ∀ seconds, (c.after calls).Settles (c.log [] calls) seconds := by
  have htallied := hc.atZero.tallied.after calls
  exact ⟨htallied, htallied.settles⟩

/-- After a reset one tick is handed out at once, none while no time can pass, and then another. -/
theorem handed_out_quarter : ∃ (c : Clock) (calls : List Call), ofPeriod 0.25 = .ok c ∧
    calls = [.advance 0.6, .reset, .advance 0.3, .advance notANumber, .advance (-1.0),
      .advance (1.0 / 0.0), .advance 0.25] ∧
    (c.log [] calls).map (·.count) = [1, 0, 0, 0, 1] ∧ (c.after calls).taken = 2 ∧
    ((c.after calls).advance (-1.0)).2 = 0 := by
  obtain ⟨c, calls, hc, hcalls, hcounts⟩ : ∃ (c : Clock) (calls : List Call),
      ofPeriod 0.25 = .ok c ∧
      calls = [.advance 0.6, .reset, .advance 0.3, .advance notANumber, .advance (-1.0),
        .advance (1.0 / 0.0), .advance 0.25] ∧
      (c.log [] calls).map (·.count) = [1, 0, 0, 0, 1] :=
    ⟨_, _, rfl, rfl, by decide +kernel⟩
  obtain ⟨htallied, hsettles⟩ := handed_out (.inl ⟨0.25, hc⟩) calls
  refine ⟨c, calls, hc, hcalls, hcounts, ?_, ?_⟩
  · rw [htallied.sum, hcounts]
    rfl
  · have hne : c.log [] calls ≠ [] := by
      intro he
      rw [he] at hcounts
      cases hcounts
    exact (hsettles (-1.0)).nothing (by decide +kernel) hne

end Clock

end DifferentialAnalyzer
