import DifferentialAnalyzer.Expr.Error
import DifferentialAnalyzer.Expr.Builtin
import DifferentialAnalyzer.Expr.Bindings

/-! Reduction: everything that the known names determine becomes a number, and the rest stays as a
smaller tree together with the names it still needs. Evaluation is reduction that has to end in a
number. A sum or product reduces its body once with the index open, and what is left of the body
once more for every value of the index. -/

namespace DifferentialAnalyzer

/-- Local names, innermost first, before the given bindings. A local name without a value hides
what lies behind it. -/
structure Env where
  bindings : Bindings
  locals : List (String × Option Float)

namespace Env

def ofBindings (b : Bindings) : Env :=
  ⟨b, []⟩

def lookup (env : Env) (name : String) : Option Float :=
  match env.locals.lookup name with
  | some known => known
  | none =>
    match env.bindings.get? name with
    | some v => some v
    | none => Builtin.constant? name

def extend (env : Env) (name : String) (known : Option Float) : Env :=
  ⟨env.bindings, (name, known) :: env.locals⟩

end Env

/-- What reduction leaves of an expression. -/
structure Residue where
  expr : Expr
  unknowns : Names

namespace Residue

def lit (v : Float) : Residue :=
  ⟨.lit v, []⟩

/-- The number, or the names that are missing. -/
def finish (r : Residue) : Except ExprError Float :=
  match r.expr with
  | .lit v => .ok v
  | _ => .error (.undefinedVariables r.unknowns)

end Residue

namespace Expr

/-- The most terms that a sum or product may have. -/
def maxTerms : Nat := 1000000

/-- How many whole numbers lie between two, both included. -/
def termCount (kind : Quantifier) (first last : Float) : Except ExprError Nat :=
  if !(isIntegral first && isIntegral last) then .error (.nonIntegerRange kind)
  else
    let span := (last - first).abs
    if span >= maxTerms.toFloat then .error (.rangeTooLarge kind maxTerms)
    else .ok (span.toUInt64.toNat + 1)

/-- Folds `count` terms, the first of them at `i`. -/
def foldTerms (kind : Quantifier) (term : Float → Except ExprError Float) (step : Float) :
    Nat → Float → Float → Except ExprError Float
  | 0, _, acc => .ok acc
  | count + 1, i, acc =>
    match term i with
    | .error e => .error e
    | .ok v => foldTerms kind term step count (i + step) (kind.combine acc v)

/-- A sum or product of the terms from `first` to `last`, counted up or down. -/
def fold (kind : Quantifier) (term : Float → Except ExprError Float) (first last : Float) :
    Except ExprError Float := do
  let count ← termCount kind first last
  foldTerms kind term (if first <= last then 1.0 else -1.0) count first kind.identity

mutual

/-- One reduction, in which `again` reduces what is left of a body. -/
def reduceWith (again : Expr → Env → Except ExprError Residue) :
    Expr → Env → Except ExprError Residue
  | .lit v, _ => .ok (.lit v)
  | .var name, env =>
    match env.lookup name with
    | some v => .ok (.lit v)
    | none => .ok ⟨.var name, [name]⟩
  | .unary sign operand, env => do
    let r ← reduceWith again operand env
    match r.expr with
    | .lit v => .ok ⟨.lit (sign.apply v), r.unknowns⟩
    | e => .ok ⟨.unary sign e, r.unknowns⟩
  | .binary op lhs rhs, env => do
    let l ← reduceWith again lhs env
    let r ← reduceWith again rhs env
    let unknowns := l.unknowns.union r.unknowns
    match l.expr.value?, r.expr.value? with
    | some a, some b => .ok ⟨.lit (op.apply a b), unknowns⟩
    | _, _ => .ok ⟨.binary op l.expr r.expr, unknowns⟩
  | .call name args, env =>
    match Builtin.find? name with
    | none => .error (.unknownFunction name)
    | some f =>
      if f.arity = args.length then do
        let (reduced, unknowns) ← reduceArgs again args env
        match (reduced.mapM value?).bind f.call? with
        | some v => .ok ⟨.lit v, unknowns⟩
        | none => .ok ⟨.call name reduced, unknowns⟩
      else .error (.arityMismatch name f.arity args.length)
  | .quantified kind index first last body, env => do
    let f ← reduceWith again first env
    let l ← reduceWith again last env
    let b ← reduceWith again body (env.extend index none)
    let needed := b.unknowns.erase index
    match f.expr.value?, l.expr.value?, needed with
    | some x, some y, [] => do
      let term := fun i => do (← again b.expr (env.extend index (some i))).finish
      .ok (.lit (← fold kind term x y))
    | _, _, _ =>
      .ok ⟨.quantified kind index f.expr l.expr b.expr,
        (f.unknowns.union l.unknowns).union needed⟩
  | .bind name value rest, env => do
    let v ← reduceWith again value env
    match v.expr.value? with
    | some x => reduceWith again rest (env.extend name (some x))
    | none => do
      let r ← reduceWith again rest (env.extend name none)
      .ok ⟨.bind name v.expr r.expr, v.unknowns.union (r.unknowns.erase name)⟩

def reduceArgs (again : Expr → Env → Except ExprError Residue) :
    List Expr → Env → Except ExprError (List Expr × Names)
  | [], _ => .ok ([], [])
  | e :: es, env => do
    let r ← reduceWith again e env
    let (rest, unknowns) ← reduceArgs again es env
    .ok (r.expr :: rest, r.unknowns.union unknowns)

end

/-- Reduction of expressions whose sums and products are nested at most `depth` deep. -/
def reduceTo : Nat → Expr → Env → Except ExprError Residue
  | 0 => reduceWith fun e _ => .ok ⟨e, []⟩
  | depth + 1 => reduceWith (reduceTo depth)

def reduce (e : Expr) (env : Env) : Except ExprError Residue :=
  reduceTo e.quantifierDepth e env

/-- Reduces as far as the bindings allow. -/
def partialEval (e : Expr) (b : Bindings) : Except ExprError Residue :=
  e.reduce (.ofBindings b)

/-- The number; a name without a value is an error. -/
def eval (e : Expr) (b : Bindings) : Except ExprError Float := do
  (← e.partialEval b).finish

end Expr

end DifferentialAnalyzer
