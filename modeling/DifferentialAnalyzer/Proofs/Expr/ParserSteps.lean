import DifferentialAnalyzer.Proofs.Expr.ParserSoundness

/-! Reading without a bound on the depth of its calls: with four calls for each token the bound is
never met, and each function is given by one equation. -/

namespace DifferentialAnalyzer

namespace Expr

/-- From this bound on one call more makes no difference. -/
structure Steady (steps : Nat) : Prop where
  climb : ∀ power {ts : List Token}, callsPerToken * ts.length + 2 ≤ steps →
    climb (steps + 1) power ts = climb steps power ts
  climbFrom : ∀ power lhs {ts : List Token}, callsPerToken * ts.length + 3 ≤ steps →
    climbFrom (steps + 1) power lhs ts = climbFrom steps power lhs ts
  operand : ∀ {ts : List Token}, callsPerToken * ts.length + 1 ≤ steps →
    operand (steps + 1) ts = operand steps ts
  arguments : ∀ offset {ts : List Token}, callsPerToken * ts.length + 3 ≤ steps →
    arguments (steps + 1) offset ts = arguments steps offset ts
  range : ∀ kind {ts : List Token}, callsPerToken * ts.length + 1 ≤ steps →
    range (steps + 1) kind ts = range steps kind ts

theorem length_lt_of_climb {steps power : Nat} {ts rest : List Token} {e : Expr}
    (h : climb steps power ts = .ok (e, rest)) : rest.length < ts.length :=
  ((sound steps).climb h).1.behind.length_lt

theorem length_lt_of_operand {steps : Nat} {ts rest : List Token} {e : Expr}
    (h : operand steps ts = .ok (e, rest)) : rest.length < ts.length := by
  obtain ⟨s, hs, -⟩ := (sound steps).operand h
  exact hs.behind.length_lt

namespace Steady

variable {steps : Nat}

theorem climb_succ (h : Steady steps) (power : Nat) {ts : List Token}
    (hle : callsPerToken * ts.length + 2 ≤ steps + 1) :
    Expr.climb (steps + 2) power ts = Expr.climb (steps + 1) power ts := by
  rw [Expr.climb, Expr.climb, h.operand (by omega)]
  refine bind_congr_ok fun x hx => ?_
  have hlt := length_lt_of_operand hx
  exact h.climbFrom power x.1 (by simp only [callsPerToken] at hle ⊢; omega)

theorem climbFrom_succ (h : Steady steps) (power : Nat) (lhs : Expr) {ts : List Token}
    (hle : callsPerToken * ts.length + 3 ≤ steps + 1) :
    Expr.climbFrom (steps + 2) power lhs ts = Expr.climbFrom (steps + 1) power lhs ts := by
  cases ts with
  | nil => rfl
  | cons t ts =>
    simp only [callsPerToken, List.length_cons] at hle
    rw [Expr.climbFrom, Expr.climbFrom]
    cases operator? t.kind with
    | some found =>
      refine if_congr Iff.rfl rfl ?_
      rw [h.climb found.1.right (by simp only [callsPerToken]; omega)]
      refine bind_congr_ok fun x hx => ?_
      have hlt := length_lt_of_climb hx
      exact h.climbFrom power _ (by simp only [callsPerToken]; omega)
    | none =>
      refine if_congr Iff.rfl (if_congr Iff.rfl rfl ?_) rfl
      rw [h.climb besidePower.right (by simp only [callsPerToken, List.length_cons]; omega)]
      refine bind_congr_ok fun x hx => ?_
      have hlt := length_lt_of_climb hx
      rw [List.length_cons] at hlt
      exact h.climbFrom power _ (by simp only [callsPerToken]; omega)

theorem operand_succ (h : Steady steps) {ts : List Token}
    (hle : callsPerToken * ts.length + 1 ≤ steps + 1) :
    Expr.operand (steps + 2) ts = Expr.operand (steps + 1) ts := by
  cases ts with
  | nil => rfl
  | cons t ts =>
    simp only [callsPerToken, List.length_cons] at hle
    have hclimb : ∀ power, Expr.climb (steps + 1) power ts = Expr.climb steps power ts :=
      fun power => h.climb power (by simp only [callsPerToken]; omega)
    have hrange : ∀ kind, Expr.range (steps + 1) kind ts = Expr.range steps kind ts :=
      fun kind => h.range kind (by simp only [callsPerToken]; omega)
    unfold Expr.operand
    cases t.kind
    case name =>
      cases ts with
      | nil => rfl
      | cons s after =>
        rw [List.length_cons] at hle
        have hafter : callsPerToken * after.length + 3 ≤ steps := by
          simp only [callsPerToken]
          omega
        simp only [h.arguments s.offset hafter]
    all_goals simp only [hclimb, hrange]

theorem arguments_succ (h : Steady steps) (offset : Nat) {ts : List Token}
    (hle : callsPerToken * ts.length + 3 ≤ steps + 1) :
    Expr.arguments (steps + 2) offset ts = Expr.arguments (steps + 1) offset ts := by
  simp only [callsPerToken] at hle
  rw [Expr.arguments, Expr.arguments, h.climb 0 (by simp only [callsPerToken]; omega)]
  refine bind_congr_ok fun x hx => ?_
  obtain ⟨arg, rest⟩ := x
  cases rest with
  | nil => rfl
  | cons t after =>
    have hlt := length_lt_of_climb hx
    rw [List.length_cons] at hlt
    have hafter : callsPerToken * after.length + 3 ≤ steps := by
      simp only [callsPerToken]
      omega
    simp only [h.arguments offset hafter]

theorem length_lt_of_expect {kind : TokenKind} {ts : List Token} {x : Token × List Token}
    (h : expect kind ts = .ok x) : x.2.length < ts.length := by
  obtain ⟨rfl, -⟩ := expect_eq_ok_iff.mp h
  exact Nat.lt_succ_self _

theorem range_succ (h : Steady steps) (kind : Quantifier) {ts : List Token}
    (hle : callsPerToken * ts.length + 1 ≤ steps + 1) :
    Expr.range (steps + 2) kind ts = Expr.range (steps + 1) kind ts := by
  have hclimb : ∀ us : List Token, us.length < ts.length →
      Expr.climb (steps + 1) 0 us = Expr.climb steps 0 us := by
    intro us hlt
    exact h.climb 0 (by simp only [callsPerToken] at hle ⊢; omega)
  rw [Expr.range, Expr.range]
  refine bind_congr_ok fun l hl => bind_congr_ok fun n hn => bind_congr_ok fun a ha => ?_
  have h₁ := length_lt_of_expect hl
  have h₂ := length_lt_of_expect hn
  have h₃ := length_lt_of_expect ha
  dsimp only
  rw [hclimb a.2 (by omega)]
  refine bind_congr_ok fun first hf => bind_congr_ok fun c hc => ?_
  have h₄ := length_lt_of_climb hf
  have h₅ := length_lt_of_expect hc
  rw [hclimb c.2 (by omega)]
  refine bind_congr_ok fun last hx => bind_congr_ok fun d hd => ?_
  have h₆ := length_lt_of_climb hx
  have h₇ := length_lt_of_expect hd
  rw [hclimb d.2 (by omega)]

end Steady

theorem steady (steps : Nat) : Steady steps := by
  induction steps with
  | zero => constructor <;> intros <;> omega
  | succ steps ih =>
    exact ⟨ih.climb_succ, ih.climbFrom_succ, ih.operand_succ, ih.arguments_succ, ih.range_succ⟩

/-- A phrase that is read with this power. -/
def phrase (power : Nat) (ts : List Token) : Parsed :=
  climb (callsPerToken * ts.length + 2) power ts

/-- The same behind what is read already. -/
def phraseFrom (power : Nat) (lhs : Expr) (ts : List Token) : Parsed :=
  climbFrom (callsPerToken * ts.length + 3) power lhs ts

def leading (ts : List Token) : Parsed :=
  operand (callsPerToken * ts.length + 1) ts

def argumentsOf (offset : Nat) (ts : List Token) : Except ExprError (List Expr × List Token) :=
  arguments (callsPerToken * ts.length + 3) offset ts

def rangeOf (kind : Quantifier) (ts : List Token) : Parsed :=
  range (callsPerToken * ts.length + 1) kind ts

section Equations

variable {steps : Nat} {ts : List Token}

theorem climb_eq_phrase (power : Nat) (h : callsPerToken * ts.length + 2 ≤ steps) :
    climb steps power ts = phrase power ts := by
  induction h with
  | refl => rfl
  | step hle ih => rw [(steady _).climb power hle, ih]

theorem climbFrom_eq_phraseFrom (power : Nat) (lhs : Expr)
    (h : callsPerToken * ts.length + 3 ≤ steps) :
    climbFrom steps power lhs ts = phraseFrom power lhs ts := by
  induction h with
  | refl => rfl
  | step hle ih => rw [(steady _).climbFrom power lhs hle, ih]

theorem arguments_eq_argumentsOf (offset : Nat) (h : callsPerToken * ts.length + 3 ≤ steps) :
    arguments steps offset ts = argumentsOf offset ts := by
  induction h with
  | refl => rfl
  | step hle ih => rw [(steady _).arguments offset hle, ih]

theorem range_eq_rangeOf (kind : Quantifier) (h : callsPerToken * ts.length + 1 ≤ steps) :
    range steps kind ts = rangeOf kind ts := by
  induction h with
  | refl => rfl
  | step hle ih => rw [(steady _).range kind hle, ih]

theorem expression_eq (ts : List Token) : expression ts = phrase 0 ts :=
  climb_eq_phrase 0 (by simp only [callsPerToken]; omega)

theorem phrase_eq (power : Nat) (ts : List Token) :
    phrase power ts = (leading ts >>= fun x => phraseFrom power x.1 x.2) := by
  rw [phrase, climb]
  refine bind_congr_ok fun x hx => ?_
  have hlt := length_lt_of_operand hx
  exact climbFrom_eq_phraseFrom power x.1 (by simp only [callsPerToken]; omega)

theorem phraseFrom_operator {power : Nat} {lhs : Expr} {t : Token} {b : BindingPower}
    {op : Operator} (ht : operator? t.kind = some (b, op)) (hle : power ≤ b.left) :
    phraseFrom power lhs (t :: ts) =
      (phrase b.right ts >>= fun x => phraseFrom power (.binary op lhs x.1) x.2) := by
  rw [phraseFrom, climbFrom, ht]
  simp only [if_neg (Nat.not_lt.mpr hle)]
  rw [climb_eq_phrase b.right (by simp only [callsPerToken, List.length_cons]; omega)]
  refine bind_congr_ok fun x hx => ?_
  have hlt := length_lt_of_climb hx
  exact climbFrom_eq_phraseFrom power _ (by simp only [callsPerToken, List.length_cons]; omega)

theorem phraseFrom_factor {power : Nat} {lhs : Expr} (hs : startsFactor ts = true)
    (hle : power ≤ besidePower.left) :
    phraseFrom power lhs ts =
      (phrase besidePower.right ts >>= fun x =>
        phraseFrom power (.binary .multiply lhs x.1) x.2) := by
  cases ts with
  | nil => cases hs
  | cons t ts =>
    have hop : operator? t.kind = none := by
      cases h : operator? t.kind with
      | none => rfl
      | some found =>
        rw [not_startsFactor_of_operator h] at hs
        cases hs
    rw [phraseFrom, climbFrom, hop]
    simp only [if_pos hs, if_neg (Nat.not_lt.mpr hle)]
    rw [climb_eq_phrase besidePower.right (by simp only [callsPerToken]; omega)]
    refine bind_congr_ok fun x hx => ?_
    have hlt := length_lt_of_climb hx
    exact climbFrom_eq_phraseFrom power _ (by simp only [callsPerToken]; omega)

theorem phraseFrom_of_stops {power : Nat} (lhs : Expr) (h : Stops power ts) :
    phraseFrom power lhs ts = .ok (lhs, ts) := by
  cases ts with
  | nil => rfl
  | cons t ts =>
    rw [phraseFrom, climbFrom]
    cases hop : operator? t.kind with
    | some found => simp only [if_pos (h.1 found.1 found.2 hop)]
    | none =>
      cases hs : startsFactor (t :: ts) with
      | true => simp only [if_true, if_pos (h.2 hs)]
      | false => simp

theorem leading_cons (t : Token) (ts : List Token) : leading (t :: ts) =
    match t.kind with
    | .number =>
      match Decimal.read t.text.toList with
      | some d => .ok (.lit (d.toFloat false), ts)
      | none => .error (.invalidNumber t.text t.offset)
    | .name =>
      match ts with
      | [] => .ok (.var t.text, [])
      | s :: after =>
        if s.kind = .leftBracket then
          argumentsOf s.offset after >>= fun x => .ok (.call t.text x.1, x.2)
        else .ok (.var t.text, s :: after)
    | .leftBracket =>
      phrase 0 ts >>= fun x => close t.offset x.2 >>= fun rest => .ok (x.1, rest)
    | .plus => phrase signPower ts >>= fun x => .ok (.unary .plus x.1, x.2)
    | .minus => phrase signPower ts >>= fun x => .ok (.unary .minus x.1, x.2)
    | .sum => rangeOf .sum ts
    | .product => rangeOf .product ts
    | _ => .error (unexpected t) := by
  have hclimb : ∀ power, climb (callsPerToken * (ts.length + 1)) power ts = phrase power ts :=
    fun power => climb_eq_phrase power (by simp only [callsPerToken]; omega)
  have hrange : ∀ kind, range (callsPerToken * (ts.length + 1)) kind ts = rangeOf kind ts :=
    fun kind => range_eq_rangeOf kind (by simp only [callsPerToken]; omega)
  rw [leading, List.length_cons]
  unfold operand
  cases t.kind
  case number => rfl
  case name =>
    cases ts with
    | nil => rfl
    | cons s after =>
      have hafter :
          callsPerToken * after.length + 3 ≤ callsPerToken * ((s :: after).length + 1) := by
        simp only [callsPerToken, List.length_cons]
        omega
      simp only [arguments_eq_argumentsOf s.offset hafter]
  all_goals simp only [hclimb, hrange]

end Equations

end Expr

end DifferentialAnalyzer
