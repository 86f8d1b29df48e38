import DifferentialAnalyzer.Expr.Token
import DifferentialAnalyzer.Decimal.Reader

/-! From tokens to expressions, by climbing over binding powers. Factors that stand side by side are
multiplied. Each function returns what it leaves unread, and `steps` bounds how deep the calls may
go. -/

namespace DifferentialAnalyzer

namespace Expr

/-- An expression and the tokens behind it. -/
abbrev Parsed :=
  Except ExprError (Expr × List Token)

def unexpected (t : Token) : ExprError :=
  .unexpectedToken t.text t.offset

/-- The next token, which has to be of this kind. -/
def expect (kind : TokenKind) : List Token → Except ExprError (Token × List Token)
  | [] => .error .unexpectedEnd
  | t :: ts => if t.kind = kind then .ok (t, ts) else .error (unexpected t)

/-- What stands behind the bracket that closes the one at `offset`. -/
def close (offset : Nat) : List Token → Except ExprError (List Token)
  | [] => .error (.unclosedBracket offset)
  | t :: ts => if t.kind = .rightBracket then .ok ts else .error (unexpected t)

/-- A name and an equals sign come next. -/
def startsBinding : List Token → Bool
  | t :: s :: _ => t.kind = .name && s.kind = .assign
  | _ => false

/-- A factor without a sign comes next. -/
def startsFactor (ts : List Token) : Bool :=
  match ts with
  | [] => false
  | t :: _ =>
    match t.kind with
    | .number | .leftBracket | .sum | .product => true
    | .name => !startsBinding ts
    | _ => false

/-- How strongly an operator holds on to what stands on either side of it. -/
structure BindingPower where
  left : Nat
  right : Nat
  deriving DecidableEq, Repr

/-- Operators between two operands. Those that group from the left bind more strongly to the right,
and a power, which groups from the right, to the left. -/
def operator? : TokenKind → Option (BindingPower × Operator)
  | .less => some (⟨0, 1⟩, .less)
  | .greater => some (⟨0, 1⟩, .greater)
  | .atMost => some (⟨0, 1⟩, .atMost)
  | .atLeast => some (⟨0, 1⟩, .atLeast)
  | .equal => some (⟨0, 1⟩, .equal)
  | .unequal => some (⟨0, 1⟩, .unequal)
  | .plus => some (⟨2, 3⟩, .add)
  | .minus => some (⟨2, 3⟩, .subtract)
  | .star => some (⟨4, 5⟩, .multiply)
  | .slash => some (⟨4, 5⟩, .divide)
  | .percent => some (⟨4, 5⟩, .remainder)
  | .caret => some (⟨7, 6⟩, .power)
  | _ => none

/-- Of a multiplication without a sign of its own. -/
def besidePower : BindingPower :=
  ⟨4, 5⟩

/-- Of a sign to the right. -/
def signPower : Nat := 5

mutual

/-- An operand, and behind it operators that bind to the left with at least this power. -/
def climb : Nat → Nat → List Token → Parsed
  | 0, _, _ => .error .unexpectedEnd
  | steps + 1, power, ts => do
    let (lhs, rest) ← operand steps ts
    climbFrom steps power lhs rest

/-- The same where `lhs` is read already. -/
def climbFrom : Nat → Nat → Expr → List Token → Parsed
  | 0, _, _, _ => .error .unexpectedEnd
  | _ + 1, _, lhs, [] => .ok (lhs, [])
  | steps + 1, power, lhs, t :: ts =>
    match operator? t.kind with
    | some (binding, op) =>
      if binding.left < power then .ok (lhs, t :: ts)
      else do
        let (rhs, rest) ← climb steps binding.right ts
        climbFrom steps power (.binary op lhs rhs) rest
    | none =>
      if startsFactor (t :: ts) then
        if besidePower.left < power then .ok (lhs, t :: ts)
        else do
          let (rhs, rest) ← climb steps besidePower.right (t :: ts)
          climbFrom steps power (.binary .multiply lhs rhs) rest
      else .ok (lhs, t :: ts)

/-- A number, a name, a call, a sum or product, anything in brackets, or a sign with what it
belongs to. -/
def operand : Nat → List Token → Parsed
  | 0, _ => .error .unexpectedEnd
  | _ + 1, [] => .error .unexpectedEnd
  | steps + 1, t :: ts =>
    match t.kind with
    | .number =>
      match Decimal.read t.text.toList with
      | some d => .ok (.lit (d.toFloat false), ts)
      | none => .error (.invalidNumber t.text t.offset)
    | .name =>
      match ts with
      | [] => .ok (.var t.text, [])
      | s :: after =>
        if s.kind = .leftBracket then do
          let (args, rest) ← arguments steps s.offset after
          .ok (.call t.text args, rest)
        else .ok (.var t.text, s :: after)
    | .leftBracket => do
      let (e, rest) ← climb steps 0 ts
      let rest ← close t.offset rest
      .ok (e, rest)
    | .plus => do
      let (e, rest) ← climb steps signPower ts
      .ok (.unary .plus e, rest)
    | .minus => do
      let (e, rest) ← climb steps signPower ts
      .ok (.unary .minus e, rest)
    | .sum => range steps .sum ts
    | .product => range steps .product ts
    | _ => .error (unexpected t)

/-- Arguments with commas between them, up to the closing bracket. -/
def arguments : Nat → Nat → List Token → Except ExprError (List Expr × List Token)
  | 0, _, _ => .error .unexpectedEnd
  | steps + 1, offset, ts => do
    let (arg, rest) ← climb steps 0 ts
    match rest with
    | [] => .error (.unclosedBracket offset)
    | t :: after =>
      match t.kind with
      | .comma => do
        let (args, rest) ← arguments steps offset after
        .ok (arg :: args, rest)
      | .rightBracket => .ok ([arg], after)
      | _ => .error (unexpected t)

/-- The bracket of a sum or product: an index, its first and last value, and the body. -/
def range : Nat → Quantifier → List Token → Parsed
  | 0, _, _ => .error .unexpectedEnd
  | steps + 1, kind, ts => do
    let (left, rest) ← expect .leftBracket ts
    let (index, rest) ← expect .name rest
    let (_, rest) ← expect .assign rest
    let (first, rest) ← climb steps 0 rest
    let (_, rest) ← expect .comma rest
    let (last, rest) ← climb steps 0 rest
    let (_, rest) ← expect .comma rest
    let (body, rest) ← climb steps 0 rest
    let rest ← close left.offset rest
    .ok (.quantified kind index.text first last body, rest)

end

/-- Calls that can follow one another before a token is read. -/
def callsPerToken : Nat := 4

/-- Any expression at the front. -/
def expression (ts : List Token) : Parsed :=
  climb (callsPerToken * (ts.length + 1)) 0 ts

/-- One semicolon is passed over. -/
def skipSemicolon : List Token → List Token
  | [] => []
  | t :: ts => if t.kind = .semicolon then ts else t :: ts

/-- Bindings, and the expression they are for; behind the last binding it may be left out and is
then zero. -/
def statement : Nat → List Token → Parsed
  | 0, _ => .error .unexpectedEnd
  | steps + 1, ts =>
    if startsBinding ts then do
      let (name, rest) ← expect .name ts
      let (_, rest) ← expect .assign rest
      let (value, rest) ← expression rest
      match skipSemicolon rest with
      | [] => .ok (.bind name.text value (.lit 0.0), [])
      | t :: after =>
        match t.kind with
        | .rightBracket | .comma | .semicolon => .error (unexpected t)
        | _ => do
          let (cont, rest) ← statement steps (t :: after)
          .ok (.bind name.text value cont, rest)
    else expression ts

def ofTokens (ts : List Token) : Except ExprError Expr :=
  if ts.isEmpty then .error .emptyExpression
  else do
    let (e, rest) ← statement (ts.length + 1) ts
    match rest with
    | [] => .ok e
    | t :: _ => .error (unexpected t)

/-- The expression that a text stands for. -/
def parse (src : String) : Except ExprError Expr := do
  ofTokens (← tokenize src)

end Expr

end DifferentialAnalyzer
