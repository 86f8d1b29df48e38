import DifferentialAnalyzer.Expr.Printer
import DifferentialAnalyzer.Proofs.Expr.NumberTokens
import DifferentialAnalyzer.Proofs.Expr.ParserSteps

/-! Every phrase of the grammar is read, with the tree of its derivation. A phrase may be part of a
longer one: what is shown of it is that reading arrives at its end with its tree in hand. -/

namespace DifferentialAnalyzer

namespace Expr

def Readable (ts : List Token) : Prop :=
  ∀ t ∈ ts, t.Readable

theorem Readable.behind {rest ts : List Token} (h : Readable ts) (hb : Behind rest ts) :
    Readable rest :=
  fun t ht => h t (hb.subset ht)

section Stops

variable {t : Token} {ts : List Token}

theorem stops_of_operator {level : Level} {op : Operator}
    (h : level.operator? t.kind = some op) : Stops ((Symbol.chain level).left + 1) (t :: ts) := by
  have hop := Level.operator?_eq_some h
  refine ⟨fun b op' hb => ?_, fun hs => ?_⟩
  · obtain ⟨rfl, -⟩ := Prod.mk.inj (Option.some.inj (hop.symm.trans hb))
    exact Nat.lt_succ_self _
  · rw [not_startsFactor_of_operator hop] at hs
    cases hs

theorem stops_of_startsFactor (h : startsFactor ts = true) : Stops besidePower.right ts := by
  cases ts with
  | nil => trivial
  | cons t ts =>
    refine ⟨fun b op hb => ?_, fun _ => by decide⟩
    rw [not_startsFactor_of_operator hb] at h
    cases h

theorem stops_of_closing (power : Nat)
    (h : t.kind = .rightBracket ∨ t.kind = .comma ∨ t.kind = .semicolon) :
    Stops power (t :: ts) := by
  rcases h with h | h | h <;> simp [Stops, h, operator?, startsFactor]

theorem stops_of_startsBinding (power : Nat) (h : startsBinding ts = true) : Stops power ts := by
  obtain ⟨n, a, rest, rfl, hn, -⟩ := eq_cons_cons_of_startsBinding h
  simp [Stops, hn, operator?, startsFactor, h]

/-- Only a power binds more strongly than a sign. -/
theorem Stops.signPower (h : Stops Symbol.power.left.succ ts) : Stops signPower ts := by
  cases ts with
  | nil => trivial
  | cons t ts =>
    refine ⟨fun b op hb => ?_, fun _ => by decide⟩
    have hlt := h.1 b op hb
    rcases operator?_eq_some hb with ⟨level, -, rfl⟩ | ⟨-, rfl, -⟩
    · cases level <;> decide
    · exact absurd hlt (by decide)

end Stops

theorem argumentsOf_last {offset : Nat} {ts rest : List Token} {s : Token} {e : Expr}
    (h : phrase 0 ts = .ok (e, s :: rest)) (hs : s.kind = .rightBracket) :
    argumentsOf offset ts = .ok ([e], rest) := by
  rw [argumentsOf, arguments, climb_eq_phrase 0 (Nat.le_refl _), h]
  simp [hs]

theorem argumentsOf_more {offset : Nat} {ts mid : List Token} {c : Token} {e : Expr}
    (h : phrase 0 ts = .ok (e, c :: mid)) (hc : c.kind = .comma) :
    argumentsOf offset ts = (argumentsOf offset mid >>= fun x => .ok (e :: x.1, x.2)) := by
  have hlt := length_lt_of_climb h
  rw [List.length_cons] at hlt
  rw [argumentsOf, arguments, climb_eq_phrase 0 (Nat.le_refl _), h]
  simp only [ok_bind, hc]
  rw [arguments_eq_argumentsOf offset (by simp only [callsPerToken]; omega)]

theorem rangeOf_eq (kind : Quantifier) {l n a c d s : Token} {ts mid mid' rest : List Token}
    {first last body : Expr} (hl : l.kind = .leftBracket) (hn : n.kind = .name)
    (ha : a.kind = .assign) (hf : phrase 0 ts = .ok (first, c :: mid)) (hc : c.kind = .comma)
    (hx : phrase 0 mid = .ok (last, d :: mid')) (hd : d.kind = .comma)
    (hb : phrase 0 mid' = .ok (body, s :: rest)) (hs : s.kind = .rightBracket) :
    rangeOf kind (l :: n :: a :: ts) = .ok (.quantified kind n.text first last body, rest) := by
  have hmid := length_lt_of_climb hf
  have hmid' := length_lt_of_climb hx
  rw [List.length_cons] at hmid hmid'
  rw [rangeOf, range]
  simp only [expect, hl, hn, ha, if_true, ok_bind]
  rw [climb_eq_phrase 0 (by simp only [callsPerToken, List.length_cons]; omega), hf]
  simp only [ok_bind, hc, if_true]
  rw [climb_eq_phrase 0 (by simp only [callsPerToken, List.length_cons]; omega), hx]
  simp only [ok_bind, hd, if_true]
  rw [climb_eq_phrase 0 (by simp only [callsPerToken, List.length_cons]; omega), hb]
  simp only [ok_bind, close, hs, if_true]

/-- Reading with any power that takes the whole phrase arrives behind it, unless the phrase goes on
there. -/
def Arrives (s : Symbol) (ts : List Token) (e : Expr) (rest : List Token) : Prop :=
  Readable ts → Stops (s.left + 1) rest → ∀ power, (Symbol.ofPower power).left ≤ s.left →
    power ≤ Symbol.power.left → phrase power ts = phraseFrom power e rest

theorem le_left_of_ofPower {power : Nat} {level : Level}
    (h : (Symbol.ofPower power).left ≤ (Symbol.chain level).left) :
    power ≤ (Symbol.chain level).left := by
  unfold Symbol.ofPower at h
  repeat' split at h
  all_goals cases level <;> simp only [Symbol.left] at h ⊢ <;> omega

theorem left_lt_operand (level : Level) : (Symbol.chain level).left < level.operand.left := by
  cases level <;> decide

def ArgumentsArrive (ts : List Token) (args : List Expr) (rest : List Token) : Prop :=
  Readable ts → ∀ offset, argumentsOf offset ts = .ok (args, rest)

namespace Arrives

variable {ts mid rest : List Token} {t : Token} {lhs rhs e : Expr} {level : Level}

theorem phrase_eq {s : Symbol} (h : Arrives s ts e rest) (hr : Readable ts) {power : Nat}
    (hle : (Symbol.ofPower power).left ≤ s.left) (hp : power ≤ Symbol.power.left)
    (hstop : Stops power rest) (hs : power ≤ s.left + 1) : phrase power ts = .ok (e, rest) := by
  rw [h hr (hstop.mono hs) power hle hp, phraseFrom_of_stops e hstop]

theorem of_leading {s : Symbol}
    (h : Readable ts → Stops (s.left + 1) rest → leading ts = .ok (e, rest)) :
    Arrives s ts e rest := by
  intro hr hstop power _ _
  rw [Expr.phrase_eq, h hr hstop]
  rfl

theorem operand (h : Arrives level.operand ts e rest) : Arrives (.chain level) ts e rest := by
  have hlt := left_lt_operand level
  intro hr hstop power hle hp
  exact h hr (hstop.mono (by omega)) power (by omega) hp

theorem operator {op : Operator} (hl : Arrives (.chain level) ts lhs (t :: mid))
    (ht : level.operator? t.kind = some op) (hr : Arrives level.operand mid rhs rest)
    (hmid : Behind (t :: mid) ts) : Arrives (.chain level) ts (.binary op lhs rhs) rest := by
  intro hread hstop power hle hp
  have hrhs : phrase ((Symbol.chain level).left + 1) mid = .ok (rhs, rest) := by
    refine hr.phrase_eq (hread.behind ((Behind.tail t mid).trans hmid)) ?_ ?_ hstop ?_
    · exact Nat.le_of_eq (congrArg Symbol.left (Symbol.ofPower_succ_left level))
    · cases level <;> decide
    · have := left_lt_operand level
      omega
  rw [hl hread (stops_of_operator ht) power hle hp,
    phraseFrom_operator (Level.operator?_eq_some ht) (le_left_of_ofPower hle)]
  simp only [hrhs, ok_bind]

theorem beside (hl : Arrives (.chain .multiplicative) ts lhs mid) (hs : startsFactor mid = true)
    (hr : Arrives .power mid rhs rest) (hmid : Behind mid ts) :
    Arrives (.chain .multiplicative) ts (.binary .multiply lhs rhs) rest := by
  intro hread hstop power hle hp
  have hrhs : phrase besidePower.right mid = .ok (rhs, rest) :=
    hr.phrase_eq (hread.behind hmid) (by decide) (by decide) hstop (by decide)
  rw [hl hread (stops_of_startsFactor hs) power hle hp,
    phraseFrom_factor hs (show power ≤ besidePower.left from le_left_of_ofPower hle)]
  simp only [hrhs, ok_bind]

theorem signed {sign : Sign} (ht : sign? t.kind = some sign) (h : Arrives .unary ts e rest) :
    Arrives .unary (t :: ts) (.unary sign e) rest := by
  refine of_leading fun hread hstop => ?_
  have he : phrase signPower ts = .ok (e, rest) :=
    h.phrase_eq (hread.behind (.tail t ts)) (by decide) (by decide)
      (hstop.mono (by decide)).signPower (by decide)
  unfold sign? at ht
  rw [leading_cons]
  cases hk : t.kind <;> simp only [hk] at ht ⊢
  case plus | minus =>
    obtain rfl := Option.some.inj ht
    rw [he]
    rfl
  all_goals cases ht

theorem raised (hl : Arrives .atom ts lhs (t :: mid)) (ht : t.kind = .caret)
    (hr : Arrives .unary mid rhs rest) (hmid : Behind (t :: mid) ts) :
    Arrives .power ts (.binary .power lhs rhs) rest := by
  intro hread hstop power hle hp
  have hop : operator? t.kind = some (⟨7, 6⟩, .power) := by rw [ht]; rfl
  have hrhs : phrase 6 mid = .ok (rhs, rest) :=
    hr.phrase_eq (hread.behind ((Behind.tail t mid).trans hmid)) (by decide) (by decide)
      (hstop.signPower.mono (by decide)) (by decide)
  rw [hl hread (stops_atom _) power (Nat.le_trans hle (by decide)) hp,
    phraseFrom_operator hop (Nat.le_trans hp (by decide))]
  simp only [hrhs, ok_bind]

theorem base (h : Arrives .atom ts e rest) : Arrives .power ts e rest :=
  fun hread _ power hle hp => h hread (stops_atom rest) power (Nat.le_trans hle (by decide)) hp

theorem unsigned (h : Arrives .power ts e rest) : Arrives .unary ts e rest :=
  fun hread hstop power hle hp =>
    h hread (hstop.mono (by decide)) power (Nat.le_trans hle (by decide)) hp

theorem number (ht : t.kind = .number) : Arrives .atom (t :: rest) (.lit t.number) rest := by
  refine of_leading fun hread _ => ?_
  obtain ⟨d, hd⟩ := Option.isSome_iff_exists.mp (hread t List.mem_cons_self ht)
  rw [leading_cons, ht, Token.number]
  simp [hd]

theorem name (ht : t.kind = .name) (hs : startsBracket rest = false) :
    Arrives .atom (t :: rest) (.var t.text) rest := by
  refine of_leading fun _ _ => ?_
  rw [leading_cons, ht]
  cases rest with
  | nil => rfl
  | cons s rest =>
    have hne : s.kind ≠ .leftBracket := by simpa [startsBracket] using hs
    simp only [if_neg hne]

theorem call {s : Token} {args : List Expr} (ht : t.kind = .name) (hs : s.kind = .leftBracket)
    (h : ArgumentsArrive ts args rest) :
    Arrives .atom (t :: s :: ts) (.call t.text args) rest := by
  refine of_leading fun hread _ => ?_
  rw [leading_cons, ht]
  simp only [if_pos hs, h (hread.behind ((Behind.tail s ts).cons t)) s.offset, ok_bind]

/-- An expression inside brackets ends where it should. -/
theorem phrase_zero (h : Arrives (.chain .comparison) ts e (t :: rest)) (hread : Readable ts)
    (ht : t.kind = .rightBracket ∨ t.kind = .comma ∨ t.kind = .semicolon) :
    phrase 0 ts = .ok (e, t :: rest) :=
  h.phrase_eq hread (by decide) (by decide) (stops_of_closing 0 ht) (by decide)

theorem bracketed {s : Token} (ht : t.kind = .leftBracket)
    (h : Arrives (.chain .comparison) ts e (s :: rest)) (hs : s.kind = .rightBracket) :
    Arrives .atom (t :: ts) e rest := by
  refine of_leading fun hread _ => ?_
  rw [leading_cons, ht]
  simp only [h.phrase_zero (hread.behind (.tail t ts)) (.inl hs), ok_bind, close, if_pos hs]

theorem quantified {l n a c d s : Token} {kind : Quantifier} {mid' : List Token}
    {first last body : Expr} (ht : quantifier? t.kind = some kind) (hl : l.kind = .leftBracket)
    (hn : n.kind = .name) (ha : a.kind = .assign)
    (hf : Arrives (.chain .comparison) ts first (c :: mid)) (hc : c.kind = .comma)
    (hx : Arrives (.chain .comparison) mid last (d :: mid')) (hd : d.kind = .comma)
    (hb : Arrives (.chain .comparison) mid' body (s :: rest)) (hs : s.kind = .rightBracket)
    (hmid : Behind (c :: mid) ts) (hmid' : Behind (d :: mid') mid) :
    Arrives .atom (t :: l :: n :: a :: ts) (.quantified kind n.text first last body) rest := by
  refine of_leading fun hread _ => ?_
  have hread₁ := hread.behind ((((Behind.tail a ts).cons n).cons l).cons t)
  have hread₂ := hread₁.behind ((Behind.tail c mid).trans hmid)
  have hread₃ := hread₂.behind ((Behind.tail d mid').trans hmid')
  have hrange := rangeOf_eq kind hl hn ha (hf.phrase_zero hread₁ (.inr (.inl hc))) hc
    (hx.phrase_zero hread₂ (.inr (.inl hd))) hd (hb.phrase_zero hread₃ (.inl hs)) hs
  unfold quantifier? at ht
  rw [leading_cons]
  cases hk : t.kind <;> simp only [hk] at ht ⊢
  case sum | product =>
    obtain rfl := Option.some.inj ht
    exact hrange
  all_goals cases ht

end Arrives

theorem Derives.arrives {s : Symbol} {ts rest : List Token} {e : Expr} (h : Derives s ts e rest) :
    Arrives s ts e rest := by
  induction h using Derives.rec
    (motive_2 := fun ts args rest _ => ArgumentsArrive ts args rest) with
  | operand h ih => exact ih.operand
  | operator hl ht hr ihl ihr => exact ihl.operator ht ihr hl.behind
  | beside hl hs hr ihl ihr => exact ihl.beside hs ihr hl.behind
  | signed ht h ih => exact .signed ht ih
  | unsigned h ih => exact ih.unsigned
  | base h ih => exact ih.base
  | raised hl ht hr ihl ihr => exact ihl.raised ht ihr hl.behind
  | number ht => exact .number ht
  | name ht hs => exact .name ht hs
  | call ht hs h ih => exact .call ht hs ih
  | bracketed ht h hs ih => exact .bracketed ht ih hs
  | quantified ht hl hn ha hf hc hx hd hb hs ihf ihx ihb =>
    exact .quantified ht hl hn ha ihf hc ihx hd ihb hs hf.behind hx.behind
  | last h hs ih =>
    intro hread offset
    exact argumentsOf_last (ih.phrase_zero hread (.inl hs)) hs
  | more h hc hs ih ihs =>
    intro hread offset
    rw [argumentsOf_more (ih.phrase_zero hread (.inr (.inl hc))) hc,
      ihs (hread.behind ((Behind.tail _ _).trans h.behind)) offset]
    rfl

theorem expression_complete {ts rest : List Token} {e : Expr}
    (h : Derives (.chain .comparison) ts e rest) (hread : Readable ts) (hstop : Stops 0 rest) :
    expression ts = .ok (e, rest) := by
  rw [expression_eq]
  exact h.arrives.phrase_eq hread (by decide) (by decide) hstop (by decide)

section Statement

variable {n a : Token} {ts rest : List Token} {value : Expr} {steps : Nat}

theorem statement_last (hn : n.kind = .name) (ha : a.kind = .assign)
    (hv : expression ts = .ok (value, rest)) (hskip : skipSemicolon rest = []) :
    statement (steps + 1) (n :: a :: ts) = .ok (.bind n.text value (.lit 0.0), []) := by
  rw [statement, if_pos (by simp [startsBinding, hn, ha])]
  simp only [expect, hn, ha, if_true, ok_bind, hv, hskip]

theorem statement_more {t : Token} {after : List Token} {cont : Expr} (hn : n.kind = .name)
    (ha : a.kind = .assign) (hv : expression ts = .ok (value, rest))
    (hskip : skipSemicolon rest = t :: after) (ht : startsPhrase t.kind = true)
    (hcont : statement steps (t :: after) = .ok (cont, [])) :
    statement (steps + 1) (n :: a :: ts) = .ok (.bind n.text value cont, []) := by
  rw [statement, if_pos (by simp [startsBinding, hn, ha])]
  simp only [expect, hn, ha, if_true, ok_bind, hv, hskip]
  cases hk : t.kind <;> simp only [hk, startsPhrase, Bool.false_eq_true] at ht <;>
    simp only [hcont, ok_bind]

end Statement

theorem statement_complete {ts : List Token} {e : Expr} (h : Program ts e) (hread : Readable ts)
    {steps : Nat} (hlt : ts.length < steps) : statement steps ts = .ok (e, []) := by
  obtain ⟨steps, rfl⟩ := Nat.exists_eq_succ_of_ne_zero (Nat.ne_zero_of_lt hlt)
  induction h generalizing steps with
  | expression hb h =>
    rw [statement, if_neg (by simp [hb])]
    exact expression_complete h hread trivial
  | @last n a ts value hn ha hv =>
    have hread' := hread.behind ((Behind.tail a ts).cons n)
    exact statement_last hn ha (expression_complete hv hread' trivial) rfl
  | @closed n a s ts value hn ha hv hs =>
    have hread' := hread.behind ((Behind.tail a ts).cons n)
    have hvalue := expression_complete hv hread' (stops_of_closing 0 (.inr (.inr hs)))
    exact statement_last hn ha hvalue (by simp [skipSemicolon, hs])
  | @separated n a s ts mid value rest hn ha hv hs h ih =>
    have hread' := hread.behind ((Behind.tail a ts).cons n)
    have hvalue := expression_complete hv hread' (stops_of_closing 0 (.inr (.inr hs)))
    have hmid := (Behind.tail s mid).trans hv.behind
    have hlen := hmid.length_lt
    obtain ⟨steps, rfl⟩ : ∃ m, steps = m + 1 := by
      simp only [List.length_cons] at hlt
      exact ⟨steps - 1, by omega⟩
    simp only [List.length_cons] at hlt
    have hcont := ih (hread'.behind hmid) steps (by omega)
    obtain ⟨t, front, rfl, ht⟩ := h.head
    exact statement_more hn ha hvalue (by simp [skipSemicolon, hs]) ht hcont
  | @adjacent n a ts mid value rest hn ha hv hb h ih =>
    have hread' := hread.behind ((Behind.tail a ts).cons n)
    have hvalue := expression_complete hv hread' (stops_of_startsBinding 0 hb)
    have hlen := hv.behind.length_lt
    obtain ⟨steps, rfl⟩ : ∃ m, steps = m + 1 := by
      simp only [List.length_cons] at hlt
      exact ⟨steps - 1, by omega⟩
    simp only [List.length_cons] at hlt
    have hcont := ih (hread'.behind hv.behind) steps (by omega)
    obtain ⟨n', a', mid', rfl, hn', -⟩ := eq_cons_cons_of_startsBinding hb
    exact statement_more hn ha hvalue (by simp [skipSemicolon, hn']) (by rw [hn']; rfl) hcont

theorem ofTokens_eq_ok_iff {ts : List Token} (hread : Readable ts) {e : Expr} :
    ofTokens ts = .ok e ↔ Program ts e := by
  unfold ofTokens
  constructor
  · intro h
    split at h
    · cases h
    obtain ⟨⟨e', rest⟩, hs, h⟩ := bind_eq_ok_iff.mp h
    cases rest with
    | nil =>
      obtain rfl := Except.ok.inj h
      exact statement_sound hs
    | cons t rest => cases h
  · intro h
    obtain ⟨t, front, rfl, -⟩ := h.head
    rw [if_neg (by simp), statement_complete h hread (Nat.lt_succ_self _)]
    rfl

/-- The texts that are read are those whose tokens are a program of the grammar, and what is read is
the tree of its derivation. -/
theorem parse_eq_ok_iff (src : String) (e : Expr) :
    parse src = .ok e ↔ ∃ ts, tokenize src = .ok ts ∧ Program ts e := by
  rw [parse, bind_eq_ok_iff]
  refine exists_congr fun ts => and_congr_right fun hts => ?_
  exact ofTokens_eq_ok_iff (Token.readable_scan hts)

/-- A sign behind a caret belongs to the exponent, one before it to the power; the factor that
follows does not, and an equals sign begins a binding. -/
example : (parse "a = -2 ^ -3 x b = 1; a < b").map display =
    .ok "a = (-(2 ^ -3) * x); b = 1; (a < b)" := by
  decide +kernel

end Expr

end DifferentialAnalyzer
