import DifferentialAnalyzer.Expr.Parser

/-! The grammar of expressions, level by level. A phrase is found at the front of some tokens and
leaves the rest, on which a name and a factor depend: they look at what follows them. -/

namespace DifferentialAnalyzer

/-- The number that the text of a token stands for. -/
def Token.number (t : Token) : Float :=
  ((Decimal.read t.text.toList).map (Decimal.toFloat false)).getD 0.0

namespace Expr

/-- Chains of operators that bind equally strongly, from the weakest on. -/
inductive Level where
  | comparison
  | additive
  | multiplicative

inductive Symbol where
  | chain (level : Level)
  | unary
  | power
  | atom

namespace Level

def operator? : Level → TokenKind → Option Operator
  | .comparison, .less => some .less
  | .comparison, .greater => some .greater
  | .comparison, .atMost => some .atMost
  | .comparison, .atLeast => some .atLeast
  | .comparison, .equal => some .equal
  | .comparison, .unequal => some .unequal
  | .additive, .plus => some .add
  | .additive, .minus => some .subtract
  | .multiplicative, .star => some .multiply
  | .multiplicative, .slash => some .divide
  | .multiplicative, .percent => some .remainder
  | _, _ => none

/-- What the operators of a chain stand between. -/
def operand : Level → Symbol
  | .comparison => .chain .additive
  | .additive => .chain .multiplicative
  | .multiplicative => .unary

end Level

def sign? : TokenKind → Option Sign
  | .plus => some .plus
  | .minus => some .minus
  | _ => none

def quantifier? : TokenKind → Option Quantifier
  | .sum => some .sum
  | .product => some .product
  | _ => none

def startsBracket : List Token → Bool
  | t :: _ => t.kind = .leftBracket
  | [] => false

mutual

/-- A phrase, its tree and the tokens behind it. -/
inductive Derives : Symbol → List Token → Expr → List Token → Prop
  | operand {level : Level} {ts rest : List Token} {e : Expr}
      (h : Derives level.operand ts e rest) : Derives (.chain level) ts e rest
  | operator {level : Level} {ts mid rest : List Token} {t : Token} {op : Operator}
      {lhs rhs : Expr} (hl : Derives (.chain level) ts lhs (t :: mid))
      (ht : level.operator? t.kind = some op) (hr : Derives level.operand mid rhs rest) :
      Derives (.chain level) ts (.binary op lhs rhs) rest
  | beside {ts mid rest : List Token} {lhs rhs : Expr}
      (hl : Derives (.chain .multiplicative) ts lhs mid) (hs : startsFactor mid = true)
      (hr : Derives .power mid rhs rest) :
      Derives (.chain .multiplicative) ts (.binary .multiply lhs rhs) rest
  | signed {t : Token} {sign : Sign} {ts rest : List Token} {e : Expr}
      (ht : sign? t.kind = some sign) (h : Derives .unary ts e rest) :
      Derives .unary (t :: ts) (.unary sign e) rest
  | unsigned {ts rest : List Token} {e : Expr} (h : Derives .power ts e rest) :
      Derives .unary ts e rest
  | base {ts rest : List Token} {e : Expr} (h : Derives .atom ts e rest) :
      Derives .power ts e rest
  | raised {ts mid rest : List Token} {t : Token} {lhs rhs : Expr}
      (hl : Derives .atom ts lhs (t :: mid)) (ht : t.kind = .caret)
      (hr : Derives .unary mid rhs rest) : Derives .power ts (.binary .power lhs rhs) rest
  | number {t : Token} {rest : List Token} (ht : t.kind = .number) :
      Derives .atom (t :: rest) (.lit t.number) rest
  | name {t : Token} {rest : List Token} (ht : t.kind = .name) (hs : startsBracket rest = false) :
      Derives .atom (t :: rest) (.var t.text) rest
  | call {t s : Token} {ts rest : List Token} {args : List Expr} (ht : t.kind = .name)
      (hs : s.kind = .leftBracket) (h : Arguments ts args rest) :
      Derives .atom (t :: s :: ts) (.call t.text args) rest
  | bracketed {t s : Token} {ts rest : List Token} {e : Expr} (ht : t.kind = .leftBracket)
      (h : Derives (.chain .comparison) ts e (s :: rest)) (hs : s.kind = .rightBracket) :
      Derives .atom (t :: ts) e rest
  | quantified {t l n a c d s : Token} {kind : Quantifier} {ts mid mid' rest : List Token}
      {first last body : Expr} (ht : quantifier? t.kind = some kind) (hl : l.kind = .leftBracket)
      (hn : n.kind = .name) (ha : a.kind = .assign)
      (hf : Derives (.chain .comparison) ts first (c :: mid)) (hc : c.kind = .comma)
      (hx : Derives (.chain .comparison) mid last (d :: mid')) (hd : d.kind = .comma)
      (hb : Derives (.chain .comparison) mid' body (s :: rest)) (hs : s.kind = .rightBracket) :
      Derives .atom (t :: l :: n :: a :: ts) (.quantified kind n.text first last body) rest

/-- Arguments with commas between them, and the bracket behind them. -/
inductive Arguments : List Token → List Expr → List Token → Prop
  | last {ts rest : List Token} {s : Token} {e : Expr}
      (h : Derives (.chain .comparison) ts e (s :: rest)) (hs : s.kind = .rightBracket) :
      Arguments ts [e] rest
  | more {ts mid rest : List Token} {c : Token} {e : Expr} {es : List Expr}
      (h : Derives (.chain .comparison) ts e (c :: mid)) (hc : c.kind = .comma)
      (hs : Arguments mid es rest) : Arguments ts (e :: es) rest

end

/-- A whole text: bindings, each perhaps with a semicolon behind it, and an expression, which may be
left out behind a binding. -/
inductive Program : List Token → Expr → Prop
  | expression {ts : List Token} {e : Expr} (hb : startsBinding ts = false)
      (h : Derives (.chain .comparison) ts e []) : Program ts e
  | last {n a : Token} {ts : List Token} {value : Expr} (hn : n.kind = .name)
      (ha : a.kind = .assign) (hv : Derives (.chain .comparison) ts value []) :
      Program (n :: a :: ts) (.bind n.text value (.lit 0.0))
  | closed {n a s : Token} {ts : List Token} {value : Expr} (hn : n.kind = .name)
      (ha : a.kind = .assign) (hv : Derives (.chain .comparison) ts value [s])
      (hs : s.kind = .semicolon) : Program (n :: a :: ts) (.bind n.text value (.lit 0.0))
  | separated {n a s : Token} {ts mid : List Token} {value rest : Expr} (hn : n.kind = .name)
      (ha : a.kind = .assign) (hv : Derives (.chain .comparison) ts value (s :: mid))
      (hs : s.kind = .semicolon) (h : Program mid rest) :
      Program (n :: a :: ts) (.bind n.text value rest)
  | adjacent {n a : Token} {ts mid : List Token} {value rest : Expr} (hn : n.kind = .name)
      (ha : a.kind = .assign) (hv : Derives (.chain .comparison) ts value mid)
      (hb : startsBinding mid = true) (h : Program mid rest) :
      Program (n :: a :: ts) (.bind n.text value rest)

/-- Some tokens are left behind others, of which at least one is gone. -/
def Behind (rest ts : List Token) : Prop :=
  ∃ front, front ≠ [] ∧ front ++ rest = ts

namespace Behind

variable {a b c : List Token}

theorem tail (t : Token) (ts : List Token) : Behind ts (t :: ts) :=
  ⟨[t], List.cons_ne_nil t [], rfl⟩

theorem trans (hab : Behind a b) (hbc : Behind b c) : Behind a c := by
  obtain ⟨front, hne, rfl⟩ := hab
  obtain ⟨front', -, rfl⟩ := hbc
  exact ⟨front' ++ front, List.append_ne_nil_of_right_ne_nil front' hne, List.append_assoc ..⟩

theorem cons (h : Behind a b) (t : Token) : Behind a (t :: b) :=
  h.trans (tail t b)

theorem length_lt (h : Behind a b) : a.length < b.length := by
  obtain ⟨front, hne, rfl⟩ := h
  have := List.length_pos_iff.mpr hne
  rw [List.length_append]
  omega

theorem subset (h : Behind a b) : a ⊆ b := by
  obtain ⟨front, -, rfl⟩ := h
  exact List.subset_append_right front a

end Behind

theorem Derives.behind {s : Symbol} {ts rest : List Token} {e : Expr} (h : Derives s ts e rest) :
    Behind rest ts := by
  induction h using Derives.rec (motive_2 := fun ts _ rest _ => Behind rest ts) with
  | operand h ih => exact ih
  | operator hl ht hr ihl ihr => exact (ihr.cons _).trans ihl
  | beside hl hs hr ihl ihr => exact ihr.trans ihl
  | signed ht h ih => exact ih.cons _
  | unsigned h ih => exact ih
  | base h ih => exact ih
  | raised hl ht hr ihl ihr => exact (ihr.cons _).trans ihl
  | number ht => exact .tail _ _
  | name ht hs => exact .tail _ _
  | call ht hs h ih => exact (ih.cons _).cons _
  | bracketed ht h hs ih => exact ((Behind.tail _ _).trans ih).cons _
  | quantified ht hl hn ha hf hc hx hd hb hs ihf ihx ihb =>
    have hmid := (((Behind.tail _ _).trans ihb).cons _).trans ihx
    exact (((((hmid.cons _).trans ihf).cons _).cons _).cons _).cons _
  | last h hs ih => exact (Behind.tail _ _).trans ih
  | more h hc hs ih ihs => exact (ihs.cons _).trans ih

/-- Tokens with which a phrase may begin. -/
def startsPhrase : TokenKind → Bool
  | .plus | .minus | .number | .name | .leftBracket | .sum | .product => true
  | _ => false

theorem Derives.head {s : Symbol} {ts rest : List Token} {e : Expr} (h : Derives s ts e rest) :
    ∃ t front, ts = t :: front ∧ startsPhrase t.kind = true := by
  induction h using Derives.rec (motive_2 := fun _ _ _ _ => True) with
  | operand h ih => exact ih
  | operator hl ht hr ihl ihr => exact ihl
  | beside hl hs hr ihl ihr => exact ihl
  | @signed t sign ts rest e ht h ih =>
    refine ⟨t, ts, rfl, ?_⟩
    unfold sign? at ht
    split at ht <;> simp_all [startsPhrase]
  | unsigned h ih => exact ih
  | base h ih => exact ih
  | raised hl ht hr ihl ihr => exact ihl
  | number ht => exact ⟨_, _, rfl, by simp [ht, startsPhrase]⟩
  | name ht hs => exact ⟨_, _, rfl, by simp [ht, startsPhrase]⟩
  | call ht hs h ih => exact ⟨_, _, rfl, by simp [ht, startsPhrase]⟩
  | bracketed ht h hs ih => exact ⟨_, _, rfl, by simp [ht, startsPhrase]⟩
  | @quantified t l n a c d s kind ts mid mid' rest first last body ht =>
    refine ⟨t, _, rfl, ?_⟩
    unfold quantifier? at ht
    split at ht <;> simp_all [startsPhrase]
  | last => trivial
  | more => trivial

theorem Program.head {ts : List Token} {e : Expr} (h : Program ts e) :
    ∃ t front, ts = t :: front ∧ startsPhrase t.kind = true := by
  cases h with
  | expression hb h => exact h.head
  | last hn => exact ⟨_, _, rfl, by simp [hn, startsPhrase]⟩
  | closed hn => exact ⟨_, _, rfl, by simp [hn, startsPhrase]⟩
  | separated hn => exact ⟨_, _, rfl, by simp [hn, startsPhrase]⟩
  | adjacent hn => exact ⟨_, _, rfl, by simp [hn, startsPhrase]⟩

namespace Symbol

/-- How strongly an operator may bind to the left that takes a phrase as its operand. -/
def left : Symbol → Nat
  | .chain .comparison => 0
  | .chain .additive => 2
  | .chain .multiplicative => 4
  | .unary => 5
  | .power => 6
  | .atom => 7

/-- The phrases that are read with this power: operators that bind more weakly stay outside. -/
def ofPower (power : Nat) : Symbol :=
  if power = 0 then .chain .comparison
  else if power ≤ 2 then .chain .additive
  else if power ≤ 4 then .chain .multiplicative
  else .unary

theorem left_ofPower_le_five (power : Nat) : (ofPower power).left ≤ 5 := by
  unfold ofPower
  repeat' split
  all_goals decide

theorem left_ofPower_le {power : Nat} {level : Level} (h : power ≤ (chain level).left) :
    (ofPower power).left ≤ (chain level).left := by
  unfold ofPower
  repeat' split
  all_goals cases level <;> simp only [left] at h ⊢ <;> omega

theorem ofPower_succ_left (level : Level) : ofPower ((chain level).left + 1) = level.operand := by
  cases level <;> rfl

end Symbol

namespace Derives

variable {s s' : Symbol} {ts rest : List Token} {e : Expr}

theorem toUnary (h : Derives s ts e rest) (hle : 5 ≤ s.left) : Derives .unary ts e rest := by
  cases s with
  | chain level => cases level <;> simp [Symbol.left] at hle
  | unary => exact h
  | power => exact h.unsigned
  | atom => exact h.base.unsigned

theorem toChain {level : Level} (h : Derives s ts e rest)
    (hle : (Symbol.chain level).left ≤ s.left) : Derives (.chain level) ts e rest := by
  by_cases hu : 5 ≤ s.left
  · have hmul : Derives (.chain .multiplicative) ts e rest := .operand (h.toUnary hu)
    cases level with
    | comparison => exact .operand (.operand hmul)
    | additive => exact .operand hmul
    | multiplicative => exact hmul
  · cases s with
    | chain level' =>
      cases level <;> cases level' <;> simp [Symbol.left] at hle <;>
        first | exact h | exact .operand h | exact .operand (.operand h)
    | _ => simp [Symbol.left] at hu

/-- A phrase is also a phrase of every weaker form. -/
theorem weaken (h : Derives s ts e rest) (hle : s'.left ≤ s.left) : Derives s' ts e rest := by
  cases s' with
  | chain level => exact h.toChain hle
  | unary => exact h.toUnary hle
  | power =>
    cases s with
    | chain level => cases level <;> simp [Symbol.left] at hle
    | unary => simp [Symbol.left] at hle
    | power => exact h
    | atom => exact h.base
  | atom =>
    cases s with
    | chain level => cases level <;> simp [Symbol.left] at hle
    | atom => exact h
    | _ => simp [Symbol.left] at hle

/-- Without a sign in front a factor is a power. -/
theorem power_of_startsFactor (h : Derives .unary ts e rest) (hs : startsFactor ts = true) :
    Derives .power ts e rest := by
  cases h with
  | @signed t sign ts rest e ht h =>
    unfold sign? at ht
    cases hk : t.kind <;> simp [hk, startsFactor] at ht hs
  | unsigned h => exact h

end Derives

/-- Nothing here continues a phrase that is read with this power. -/
def Stops (power : Nat) : List Token → Prop
  | [] => True
  | t :: ts => (∀ b op, operator? t.kind = some (b, op) → b.left < power) ∧
      (startsFactor (t :: ts) = true → besidePower.left < power)

theorem Stops.mono {p q : Nat} {ts : List Token} (h : Stops p ts) (hle : p ≤ q) : Stops q ts := by
  cases ts with
  | nil => trivial
  | cons t ts =>
    exact ⟨fun b op hb => Nat.lt_of_lt_of_le (h.1 b op hb) hle,
      fun hs => Nat.lt_of_lt_of_le (h.2 hs) hle⟩

/-- Where an expression ends, nothing but a binding can begin a phrase. -/
theorem startsBinding_of_stops {t : Token} {ts : List Token} (h : Stops 0 (t :: ts))
    (hk : startsPhrase t.kind = true) : startsBinding (t :: ts) = true := by
  have hfactor : startsFactor (t :: ts) = false :=
    Bool.eq_false_iff.mpr fun hf => Nat.not_lt_zero _ (h.2 hf)
  have hoperator : operator? t.kind = none :=
    Option.eq_none_iff_forall_ne_some.mpr fun found ho => Nat.not_lt_zero _ (h.1 _ _ ho)
  cases ht : t.kind <;> simp_all [startsPhrase, operator?, startsFactor]

/-- The operators of the levels, and the one that groups from the right. -/
theorem operator?_eq_some {kind : TokenKind} {b : BindingPower} {op : Operator}
    (h : operator? kind = some (b, op)) :
    (∃ level : Level, level.operator? kind = some op ∧
      b = ⟨(Symbol.chain level).left, (Symbol.chain level).left + 1⟩) ∨
    kind = .caret ∧ b = ⟨7, 6⟩ ∧ op = .power := by
  cases kind <;> simp [operator?] at h <;> obtain ⟨rfl, rfl⟩ := h
  all_goals first
    | exact .inr ⟨rfl, rfl, rfl⟩
    | exact .inl ⟨.comparison, rfl, rfl⟩
    | exact .inl ⟨.additive, rfl, rfl⟩
    | exact .inl ⟨.multiplicative, rfl, rfl⟩

theorem Level.operator?_eq_some {level : Level} {kind : TokenKind} {op : Operator}
    (h : level.operator? kind = some op) :
    Expr.operator? kind =
      some (⟨(Symbol.chain level).left, (Symbol.chain level).left + 1⟩, op) := by
  cases level <;> cases kind <;> simp [Level.operator?] at h <;> subst h <;> rfl

theorem not_startsFactor_of_operator {t : Token} {ts : List Token} {b : BindingPower}
    {op : Operator} (h : operator? t.kind = some (b, op)) : startsFactor (t :: ts) = false := by
  cases hk : t.kind <;> simp [hk, operator?] at h <;> simp [startsFactor, hk]

end Expr

end DifferentialAnalyzer
