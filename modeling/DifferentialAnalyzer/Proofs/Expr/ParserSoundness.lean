import DifferentialAnalyzer.Proofs.Fallible
import DifferentialAnalyzer.Proofs.Expr.Grammar

/-! Whatever is read is a phrase of the grammar, and nothing behind it continues it. -/

namespace DifferentialAnalyzer

namespace Expr

theorem expect_eq_ok_iff {kind : TokenKind} {ts rest : List Token} {t : Token} :
    expect kind ts = .ok (t, rest) ↔ ts = t :: rest ∧ t.kind = kind := by
  cases ts with
  | nil => simp [expect]
  | cons s ts =>
    by_cases hs : s.kind = kind
    · simp only [expect, if_pos hs, Except.ok.injEq, Prod.mk.injEq, List.cons.injEq]
      exact ⟨fun h => ⟨h, h.1 ▸ hs⟩, And.left⟩
    · simp only [expect, if_neg hs, List.cons.injEq, reduceCtorEq, false_iff]
      rintro ⟨⟨rfl, -⟩, hk⟩
      exact hs hk

theorem close_eq_ok_iff {offset : Nat} {ts rest : List Token} :
    close offset ts = .ok rest ↔ ∃ s, ts = s :: rest ∧ s.kind = .rightBracket := by
  cases ts with
  | nil => simp [close]
  | cons s ts =>
    by_cases hs : s.kind = .rightBracket <;> simp [close, hs]

/-- What calls with this bound read. A sign with its operand is a phrase that takes no further
operator, an atom one that may take any. -/
structure Sound (steps : Nat) : Prop where
  climb : ∀ {power ts e rest}, climb steps power ts = .ok (e, rest) →
    Derives (.ofPower power) ts e rest ∧ Stops power rest
  climbFrom : ∀ {power s ts lhs mid e rest}, climbFrom steps power lhs mid = .ok (e, rest) →
    Derives s ts lhs mid → (Symbol.ofPower power).left ≤ s.left → Stops (s.left + 1) mid →
    Derives (.ofPower power) ts e rest ∧ Stops power rest
  operand : ∀ {ts e rest}, operand steps ts = .ok (e, rest) →
    ∃ s, Derives s ts e rest ∧ 5 ≤ s.left ∧ Stops (s.left + 1) rest
  arguments : ∀ {offset ts args rest}, arguments steps offset ts = .ok (args, rest) →
    Arguments ts args rest
  range : ∀ {kind t ts e rest}, quantifier? t.kind = some kind →
    range steps kind ts = .ok (e, rest) → Derives .atom (t :: ts) e rest

theorem stops_atom (ts : List Token) : Stops (Symbol.atom.left + 1) ts := by
  cases ts with
  | nil => trivial
  | cons t ts =>
    refine ⟨fun b op h => ?_, fun _ => by decide⟩
    rcases operator?_eq_some h with ⟨level, -, rfl⟩ | ⟨-, rfl, -⟩
    · cases level <;> decide
    · decide

namespace Sound

variable {steps : Nat}

theorem climb_succ (h : Sound steps) {power : Nat} {ts rest : List Token} {e : Expr}
    (hr : Expr.climb (steps + 1) power ts = .ok (e, rest)) :
    Derives (.ofPower power) ts e rest ∧ Stops power rest := by
  rw [Expr.climb] at hr
  obtain ⟨⟨lhs, mid⟩, hl, hr⟩ := bind_eq_ok_iff.mp hr
  obtain ⟨s, hs, hle, hstop⟩ := h.operand hl
  exact h.climbFrom hr hs (Nat.le_trans (Symbol.left_ofPower_le_five power) hle) hstop

theorem climbFrom_succ (h : Sound steps) {power : Nat} {s : Symbol} {ts mid rest : List Token}
    {lhs e : Expr} (hr : Expr.climbFrom (steps + 1) power lhs mid = .ok (e, rest))
    (hs : Derives s ts lhs mid) (hle : (Symbol.ofPower power).left ≤ s.left)
    (hstop : Stops (s.left + 1) mid) :
    Derives (.ofPower power) ts e rest ∧ Stops power rest := by
  cases mid with
  | nil =>
    rw [Expr.climbFrom] at hr
    obtain ⟨rfl, rfl⟩ := Prod.mk.inj (Except.ok.inj hr)
    exact ⟨hs.weaken hle, trivial⟩
  | cons t mid =>
    rw [Expr.climbFrom] at hr
    cases hop : operator? t.kind with
    | some found =>
      obtain ⟨b, op⟩ := found
      simp only [hop] at hr
      split at hr
      next hlt =>
        obtain ⟨rfl, rfl⟩ := Prod.mk.inj (Except.ok.inj hr)
        refine ⟨hs.weaken hle, fun b' op' h' => ?_, fun hf => ?_⟩
        · obtain ⟨rfl, rfl⟩ := Prod.mk.inj (Option.some.inj (hop.symm.trans h'))
          exact hlt
        · rw [not_startsFactor_of_operator hop] at hf
          cases hf
      next hlt =>
        obtain ⟨⟨rhs, after⟩, hrhs, hfrom⟩ := bind_eq_ok_iff.mp hr
        obtain ⟨hright, hafter⟩ := h.climb hrhs
        have hleft : b.left ≤ s.left := Nat.le_of_lt_succ (hstop.1 b op hop)
        rcases operator?_eq_some hop with ⟨level, hlevel, rfl⟩ | ⟨hcaret, rfl, rfl⟩
        · rw [Symbol.ofPower_succ_left] at hright
          exact h.climbFrom hfrom (.operator (hs.toChain hleft) hlevel hright)
            (Symbol.left_ofPower_le (Nat.le_of_not_lt hlt)) hafter
        · have hatom : Derives .atom ts lhs (t :: mid) := hs.weaken hleft
          exact h.climbFrom hfrom (.raised hatom hcaret hright)
            (Nat.le_trans (Symbol.left_ofPower_le_five power) (by decide)) (hafter.mono (by decide))
    | none =>
      simp only [hop] at hr
      split at hr
      next hfactor =>
        split at hr
        next hlt =>
          obtain ⟨rfl, rfl⟩ := Prod.mk.inj (Except.ok.inj hr)
          exact ⟨hs.weaken hle, fun b op h' => by simp [hop] at h', fun _ => hlt⟩
        next hlt =>
          obtain ⟨⟨rhs, after⟩, hrhs, hr⟩ := bind_eq_ok_iff.mp hr
          obtain ⟨hright, hafter⟩ := h.climb hrhs
          have hleft : besidePower.left ≤ s.left := Nat.le_of_lt_succ (hstop.2 hfactor)
          have hpower := Derives.power_of_startsFactor hright hfactor
          exact h.climbFrom hr (.beside (hs.toChain hleft) hfactor hpower)
            (Symbol.left_ofPower_le (Nat.le_of_not_lt hlt)) hafter
      next hfactor =>
        obtain ⟨rfl, rfl⟩ := Prod.mk.inj (Except.ok.inj hr)
        exact ⟨hs.weaken hle, fun b op h' => by simp [hop] at h', fun hf => absurd hf hfactor⟩

theorem range_succ (h : Sound steps) {kind : Quantifier} {t : Token} {ts rest : List Token}
    {e : Expr} (ht : quantifier? t.kind = some kind)
    (hr : Expr.range (steps + 1) kind ts = .ok (e, rest)) : Derives .atom (t :: ts) e rest := by
  simp only [Expr.range, bind_eq_ok_iff, Prod.exists, expect_eq_ok_iff, close_eq_ok_iff,
    Except.ok.injEq, Prod.mk.injEq] at hr
  obtain ⟨l, _, ⟨rfl, hl⟩, n, _, ⟨rfl, hn⟩, a, _, ⟨rfl, ha⟩, first, _, hfirst, c, mid, ⟨rfl, hc⟩,
    last, _, hlast, d, mid', ⟨rfl, hd⟩, body, _, hbody, _, ⟨s, rfl, hs⟩, rfl, rfl⟩ := hr
  exact .quantified ht hl hn ha (h.climb hfirst).1 hc (h.climb hlast).1 hd (h.climb hbody).1 hs

theorem arguments_succ (h : Sound steps) {offset : Nat} {ts rest : List Token} {args : List Expr}
    (hr : Expr.arguments (steps + 1) offset ts = .ok (args, rest)) : Arguments ts args rest := by
  rw [Expr.arguments] at hr
  obtain ⟨⟨arg, mid⟩, harg, hr⟩ := bind_eq_ok_iff.mp hr
  have hphrase := (h.climb harg).1
  cases mid with
  | nil => cases hr
  | cons t mid =>
    cases hk : t.kind <;> simp only [hk] at hr
    case comma =>
      obtain ⟨⟨args', after⟩, hargs, he⟩ := bind_eq_ok_iff.mp hr
      obtain ⟨rfl, rfl⟩ := Prod.mk.inj (Except.ok.inj he)
      exact .more hphrase hk (h.arguments hargs)
    case rightBracket =>
      obtain ⟨rfl, rfl⟩ := Prod.mk.inj (Except.ok.inj hr)
      exact .last hphrase hk
    all_goals cases hr

theorem operand_succ (h : Sound steps) {ts rest : List Token} {e : Expr}
    (hr : Expr.operand (steps + 1) ts = .ok (e, rest)) :
    ∃ s, Derives s ts e rest ∧ 5 ≤ s.left ∧ Stops (s.left + 1) rest := by
  have hatom : ∀ {ts e rest}, Derives .atom ts e rest →
      ∃ s, Derives s ts e rest ∧ 5 ≤ s.left ∧ Stops (s.left + 1) rest :=
    fun h => ⟨.atom, h, by decide, stops_atom _⟩
  have hsigned : ∀ {sign t ts e rest}, sign? t.kind = some sign →
      (Expr.climb steps signPower ts >>= fun x => .ok (.unary sign x.1, x.2)) =
        Except.ok (e, rest) →
      ∃ s, Derives s (t :: ts) e rest ∧ 5 ≤ s.left ∧ Stops (s.left + 1) rest := by
    intro sign t ts e rest ht he
    obtain ⟨⟨e', rest'⟩, hclimb, he⟩ := bind_eq_ok_iff.mp he
    obtain ⟨rfl, rfl⟩ := Prod.mk.inj (Except.ok.inj he)
    obtain ⟨hphrase, hstop⟩ := h.climb hclimb
    exact ⟨.unary, .signed ht hphrase, by decide, hstop.mono (by decide)⟩
  cases ts with
  | nil => cases hr
  | cons t ts =>
    unfold Expr.operand at hr
    cases hk : t.kind <;> simp only [hk] at hr
    case number =>
      cases hd : Decimal.read t.text.toList with
      | none => simp [hd] at hr
      | some d =>
        simp only [hd] at hr
        obtain ⟨rfl, rfl⟩ := Prod.mk.inj (Except.ok.inj hr)
        have hnumber : t.number = d.toFloat false := by simp [Token.number, hd]
        exact hatom (hnumber ▸ .number hk)
    case name =>
      cases ts with
      | nil =>
        obtain ⟨rfl, rfl⟩ := Prod.mk.inj (Except.ok.inj hr)
        exact hatom (.name hk rfl)
      | cons s ts =>
        by_cases hs : s.kind = .leftBracket
        · simp only [if_pos hs] at hr
          obtain ⟨⟨args, after⟩, hargs, he⟩ := bind_eq_ok_iff.mp hr
          obtain ⟨rfl, rfl⟩ := Prod.mk.inj (Except.ok.inj he)
          exact hatom (.call hk hs (h.arguments hargs))
        · simp only [if_neg hs] at hr
          obtain ⟨rfl, rfl⟩ := Prod.mk.inj (Except.ok.inj hr)
          exact hatom (.name hk (by simpa [startsBracket] using hs))
    case leftBracket =>
      simp only [bind_eq_ok_iff, Prod.exists, close_eq_ok_iff, Except.ok.injEq,
        Prod.mk.injEq] at hr
      obtain ⟨e', _, hclimb, _, ⟨s, rfl, hs⟩, rfl, rfl⟩ := hr
      exact hatom (.bracketed hk (h.climb hclimb).1 hs)
    case plus => exact hsigned (by simp [hk, sign?]) hr
    case minus => exact hsigned (by simp [hk, sign?]) hr
    case sum => exact hatom (h.range (by simp [hk, quantifier?]) hr)
    case product => exact hatom (h.range (by simp [hk, quantifier?]) hr)
    all_goals cases hr

end Sound

theorem sound (steps : Nat) : Sound steps := by
  induction steps with
  | zero => constructor <;> (intros; simp_all [climb, climbFrom, operand, arguments, range])
  | succ steps ih =>
    exact ⟨ih.climb_succ, ih.climbFrom_succ, ih.operand_succ, ih.arguments_succ, ih.range_succ⟩

theorem expression_sound {ts rest : List Token} {e : Expr} (h : expression ts = .ok (e, rest)) :
    Derives (.chain .comparison) ts e rest ∧ Stops 0 rest :=
  (sound _).climb h

theorem eq_cons_cons_of_startsBinding {ts : List Token} (h : startsBinding ts = true) :
    ∃ n a rest, ts = n :: a :: rest ∧ n.kind = .name ∧ a.kind = .assign := by
  rcases ts with _ | ⟨n, _ | ⟨a, rest⟩⟩
  · cases h
  · cases h
  · exact ⟨n, a, rest, rfl, by simpa [startsBinding] using h⟩

theorem statement_sound {steps : Nat} {ts : List Token} {e : Expr}
    (h : statement steps ts = .ok (e, [])) : Program ts e := by
  induction steps generalizing ts e with
  | zero => cases h
  | succ steps ih =>
    rw [statement] at h
    split at h
    next hb =>
      obtain ⟨n, a, rest, rfl, hn, ha⟩ := eq_cons_cons_of_startsBinding hb
      simp only [expect, hn, ha, if_true, ok_bind] at h
      obtain ⟨⟨value, mid⟩, hvalue, h⟩ := bind_eq_ok_iff.mp h
      obtain ⟨hv, hstop⟩ := expression_sound hvalue
      cases hskip : skipSemicolon mid with
      | nil =>
        simp only [hskip] at h
        obtain ⟨rfl, -⟩ := Prod.mk.inj (Except.ok.inj h)
        rcases mid with _ | ⟨s, mid⟩
        · exact .last hn ha hv
        · by_cases hs : s.kind = .semicolon
          · obtain rfl : mid = [] := by simpa [skipSemicolon, hs] using hskip
            exact .closed hn ha hv hs
          · simp [skipSemicolon, hs] at hskip
      | cons t after =>
        have hcont : ∃ cont, statement steps (t :: after) = .ok (cont, []) ∧
            e = .bind n.text value cont := by
          simp only [hskip] at h
          cases hk : t.kind <;> simp only [hk] at h
          case rightBracket | comma | semicolon => cases h
          all_goals
            obtain ⟨⟨cont, rest'⟩, hcont, he⟩ := bind_eq_ok_iff.mp h
            obtain ⟨rfl, rfl⟩ := Prod.mk.inj (Except.ok.inj he)
            exact ⟨cont, hcont, rfl⟩
        obtain ⟨cont, hcont, rfl⟩ := hcont
        rcases mid with _ | ⟨s, mid⟩
        · cases hskip
        · by_cases hs : s.kind = .semicolon
          · obtain rfl : mid = t :: after := by simpa [skipSemicolon, hs] using hskip
            exact .separated hn ha hv hs (ih hcont)
          · obtain ⟨rfl, rfl⟩ : s = t ∧ mid = after := by simpa [skipSemicolon, hs] using hskip
            obtain ⟨u, front, he, hu⟩ := (ih hcont).head
            obtain ⟨rfl, rfl⟩ := List.cons.inj he
            exact .adjacent hn ha hv (startsBinding_of_stops hstop hu) (ih hcont)
    next hb =>
      exact .expression (by simpa using hb) (expression_sound h).1

end Expr

end DifferentialAnalyzer
