import DifferentialAnalyzer.Proofs.Expr.ParserCompleteness

/-! What the text of an expression is read as. There are brackets around every operator that stands
between two operands, but none around a sign, so the sign of a base takes in the whole power. -/

namespace DifferentialAnalyzer

/-- The token of an operator. -/
def Operator.kind : Operator → TokenKind
  | .add => .plus
  | .subtract => .minus
  | .multiply => .star
  | .divide => .slash
  | .remainder => .percent
  | .power => .caret
  | .less => .less
  | .greater => .greater
  | .atMost => .atMost
  | .atLeast => .atLeast
  | .equal => .equal
  | .unequal => .unequal

theorem Operator.kind_ne_leftBracket (op : Operator) : op.kind ≠ .leftBracket := by
  cases op <;> decide

theorem Operator.eq_power_or (op : Operator) :
    op = .power ∨ ∃ level : Expr.Level, level.operator? op.kind = some op := by
  cases op with
  | power => exact .inl rfl
  | add | subtract => exact .inr ⟨.additive, rfl⟩
  | multiply | divide | remainder => exact .inr ⟨.multiplicative, rfl⟩
  | less | greater | atMost | atLeast | equal | unequal => exact .inr ⟨.comparison, rfl⟩

theorem Operator.longest_symbol (op : Operator) (rest : List Char) :
    Token.longest (op.symbol.toList ++ ' ' :: rest) = some (op.kind, op.symbol.toList.length) := by
  cases op <;> rfl

namespace Expr

/-- The expression with this exponent, if there is one. -/
def raise (e : Expr) : Option Expr → Expr
  | none => e
  | some exponent => .binary .power e exponent

mutual

/-- What the text of an expression is read as if this exponent stands behind it. -/
def reread : Expr → Option Expr → Expr
  | .lit v, exponent => raise (.lit v) exponent
  | .var name, exponent => raise (.var name) exponent
  | .unary sign operand, exponent => .unary sign (operand.reread exponent)
  | .binary .power lhs rhs, exponent => raise (lhs.reread (some (rhs.reread none))) exponent
  | .binary op lhs rhs, exponent =>
    raise (.binary op (lhs.reread none) (rhs.reread none)) exponent
  | .call name args, exponent => raise (.call name (rereadList args)) exponent
  | .quantified kind index first last body, exponent =>
    raise (.quantified kind index (first.reread none) (last.reread none) (body.reread none))
      exponent
  | .bind name value rest, exponent =>
    raise (.bind name (value.reread none) (rest.reread none)) exponent

def rereadList : List Expr → List Expr
  | [] => []
  | e :: es => e.reread none :: rereadList es

end

def isSigned : Expr → Bool
  | .unary .. => true
  | _ => false

theorem reread_some {e : Expr} (h : e.isSigned = false) (exponent : Expr) :
    e.reread (some exponent) = .binary .power (e.reread none) exponent := by
  cases e with
  | unary sign operand => cases h
  | binary op lhs rhs => cases op <;> rfl
  | _ => rfl

theorem reread_binary {op : Operator} (h : op ≠ .power) (lhs rhs : Expr) :
    (binary op lhs rhs).reread none = .binary op (lhs.reread none) (rhs.reread none) := by
  cases op with
  | power => exact absurd rfl h
  | _ => rfl

theorem startsBinding_of_kind {t : Token} (h : t.kind ≠ .name) (ts : List Token) :
    startsBinding (t :: ts) = false := by
  cases ts <;> simp [startsBinding, h]

/-- The tokens are a phrase of what the expression is read as, alone or as the base of a power. -/
structure Spells (ts : List Token) (e : Expr) : Prop where
  phrase : ∀ rest, startsBracket rest = false → Derives .unary (ts ++ rest) (e.reread none) rest
  raised : ∀ (t : Token) (mid : List Token) (exponent : Expr) (rest : List Token),
    t.kind = .caret → Derives .unary mid exponent rest →
    Derives .unary (ts ++ t :: mid) (e.reread (some exponent)) rest
  starts : startsBinding ts = false

/-- The same of arguments and the bracket behind them. -/
def SpellsArguments (ts : List Token) (es : List Expr) : Prop :=
  ∀ rest, Arguments (ts ++ rest) (rereadList es) rest

namespace Spells

variable {us vs : List Token} {o t c : Token} {e lhs rhs : Expr}

theorem of_atom (h : ∀ rest, startsBracket rest = false →
    Derives .atom (us ++ rest) (e.reread none) rest) (he : e.isSigned = false)
    (hs : startsBinding us = false) : Spells us e where
  phrase rest hrest := (h rest hrest).base.unsigned
  raised t mid exponent rest ht hd := by
    rw [reread_some he]
    exact (Derives.raised (h (t :: mid) (by simp [startsBracket, ht])) ht hd).unsigned
  starts := hs

theorem chain (h : Spells us e) {rest : List Token} (hrest : startsBracket rest = false)
    (level : Level) : Derives (.chain level) (us ++ rest) (e.reread none) rest :=
  (h.phrase rest hrest).toChain (by cases level <;> decide)

theorem lit (ht : t.kind = .number) : Spells [t] (.lit t.number) :=
  of_atom (fun _ _ => .number ht) rfl rfl

theorem var (ht : t.kind = .name) : Spells [t] (.var t.text) :=
  of_atom (fun _ hrest => .name ht hrest) rfl rfl

theorem unary {sign : Sign} (ht : sign? t.kind = some sign) (h : Spells us e) :
    Spells (t :: us) (.unary sign e) where
  phrase rest hrest := .signed ht (h.phrase rest hrest)
  raised s mid exponent rest hs hd := .signed ht (h.raised s mid exponent rest hs hd)
  starts := by
    have hname : t.kind ≠ .name := by
      intro hk
      rw [hk] at ht
      cases ht
    exact startsBinding_of_kind hname us

theorem binary {op : Operator} (ho : o.kind = .leftBracket) (hl : Spells us lhs)
    (ht : t.kind = op.kind) (hr : Spells vs rhs) (hc : c.kind = .rightBracket) :
    Spells (o :: (us ++ t :: (vs ++ [c]))) (.binary op lhs rhs) := by
  have hclose : ∀ rest, startsBracket (c :: rest) = false := fun rest => by
    simp [startsBracket, hc]
  have hchain : ∀ rest, Derives (.chain .comparison) (us ++ t :: (vs ++ c :: rest))
      ((Expr.binary op lhs rhs).reread none) (c :: rest) := by
    intro rest
    -- Only a power is read into its base; other operators stand between phrases that are complete.
    rcases op.eq_power_or with rfl | ⟨level, hlevel⟩
    · exact (hl.raised t _ _ _ ht (hr.phrase _ (hclose rest))).toChain (by decide)
    · have hpower : op ≠ .power := by
        rintro rfl
        cases level <;> cases hlevel
      have htoken : level.operator? t.kind = some op := ht ▸ hlevel
      have hstart : startsBracket (t :: (vs ++ c :: rest)) = false := by
        simp [startsBracket, ht, op.kind_ne_leftBracket]
      rw [reread_binary hpower]
      exact (Derives.operator (hl.chain hstart level) htoken
        ((hr.phrase _ (hclose rest)).weaken (by cases level <;> decide))).toChain
        (by cases level <;> decide)
  refine of_atom (fun rest _ => ?_) rfl (startsBinding_of_kind (by simp [ho]) _)
  have h := Derives.bracketed ho (hchain rest) hc
  simpa using h

theorem call {ts : List Token} {args : List Expr} (ht : t.kind = .name) (ho : o.kind = .leftBracket)
    (h : SpellsArguments ts args) : Spells (t :: o :: ts) (.call t.text args) :=
  of_atom (fun rest _ => .call ht ho (h rest)) rfl (by simp [startsBinding, ho])

theorem quantified {k n a d : Token} {ws : List Token} {kind : Quantifier} {first last body : Expr}
    (hk : quantifier? k.kind = some kind) (ho : o.kind = .leftBracket) (hn : n.kind = .name)
    (ha : a.kind = .assign) (hf : Spells us first) (hc : c.kind = .comma) (hx : Spells vs last)
    (hd : d.kind = .comma) (hb : Spells ws body) (ht : t.kind = .rightBracket) :
    Spells (k :: o :: n :: a :: (us ++ c :: (vs ++ d :: (ws ++ [t]))))
      (.quantified kind n.text first last body) := by
  have hcomma : ∀ {s : Token} {rest : List Token}, s.kind = .comma →
      startsBracket (s :: rest) = false := fun hs => by simp [startsBracket, hs]
  refine of_atom (fun rest _ => ?_) rfl (by simp [startsBinding, ho])
  have hclose : startsBracket (t :: rest) = false := by simp [startsBracket, ht]
  have h := Derives.quantified hk ho hn ha
    (hf.chain (hcomma hc) .comparison) hc
    (hx.chain (hcomma hd) .comparison) hd (hb.chain hclose .comparison) ht
  simpa [reread, raise] using h

end Spells

theorem SpellsArguments.last {us : List Token} {c : Token} {e : Expr} (h : Spells us e)
    (hc : c.kind = .rightBracket) : SpellsArguments (us ++ [c]) [e] := by
  intro rest
  have hclose : startsBracket (c :: rest) = false := by simp [startsBracket, hc]
  rw [List.append_assoc]
  exact .last (h.chain hclose .comparison) hc

theorem SpellsArguments.more {us vs : List Token} {c : Token} {e : Expr} {es : List Expr}
    (h : Spells us e) (hc : c.kind = .comma) (hs : SpellsArguments vs es) :
    SpellsArguments (us ++ c :: vs) (e :: es) := by
  intro rest
  have hcomma : startsBracket (c :: (vs ++ rest)) = false := by simp [startsBracket, hc]
  rw [List.append_assoc]
  exact .more (h.chain hcomma .comparison) hc (hs rest)

end Expr

end DifferentialAnalyzer
