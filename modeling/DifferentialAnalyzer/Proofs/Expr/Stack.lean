import DifferentialAnalyzer.Proofs.Expr.Shrinking

/-! Reduction on one stack of local names. A name is put on it while an expression is reduced in
which it stands for something, and is taken off again, whether that succeeds or not. So all
reductions leave the stack as they found it, and it makes no difference that they share it. -/

namespace DifferentialAnalyzer

/-- Work on one stack of local names, which an error leaves behind as well. It gives nothing if more
calls are nested than may be. -/
abbrev Stacked :=
  ExceptT ExprError (StateT Env Option)

/-- Without the innermost local name. -/
def Env.leave (env : Env) : Env :=
  ⟨env.bindings, env.locals.tail⟩

namespace Stacked

variable {α β : Type}

/-- With a local name on the stack for as long as the work inside takes. -/
def within (name : String) (known : Option Float) (inner : Stacked α) : Stacked α :=
  ExceptT.mk do
    modify (·.extend name known)
    let result ← inner.run
    modify Env.leave
    return result

def foldTerms (kind : Quantifier) (term : Float → Stacked Float) (step : Float) :
    Nat → Float → Float → Stacked Float
  | 0, _, acc => return acc
  | count + 1, i, acc => do
    foldTerms kind term step count (i + step) (kind.combine acc (← term i))

/-- A sum or product whose terms are worked out on the stack one after another. -/
def fold (kind : Quantifier) (term : Float → Stacked Float) (first last : Float) :
    Stacked Float := do
  let count ← MonadExcept.ofExcept (Expr.termCount kind first last)
  foldTerms kind term (if first <= last then 1.0 else -1.0) count first kind.identity

/-- The work ends with the result and leaves the stack as it was. -/
def Keeps (work : Stacked α) (env : Env) (result : Except ExprError α) : Prop :=
  work.run.run env = some (result, env)

section Keeps

variable {work : Stacked α} {env : Env} {result : Except ExprError α}

theorem keeps_pure (a : α) (env : Env) : Keeps (pure a) env (.ok a) :=
  rfl

theorem keeps_throw (e : ExprError) (env : Env) : Keeps (throw e : Stacked α) env (.error e) :=
  rfl

theorem keeps_ofExcept (result : Except ExprError α) (env : Env) :
    Keeps (MonadExcept.ofExcept result) env result := by
  cases result <;> rfl

theorem keeps_get_bind_iff {next : Env → Stacked α} :
    Keeps (get >>= next) env result ↔ Keeps (next env) env result :=
  Iff.rfl

theorem Keeps.bind (h : Keeps work env result) {next : α → Stacked β}
    {next' : α → Except ExprError β} (hnext : ∀ a, result = .ok a → Keeps (next a) env (next' a)) :
    Keeps (work >>= next) env (result >>= next') := by
  unfold Keeps at h ⊢
  rw [ExceptT.run_bind, StateT.run_bind, h]
  cases result with
  | error e => rfl
  | ok a => exact hnext a rfl

/-- What the work puts on the stack it takes off again, also if it fails. -/
theorem Keeps.within {name : String} {known : Option Float}
    (h : Keeps work (env.extend name known) result) :
    Keeps (within name known work) env result := by
  have hrun : (Stacked.within name known work).run.run env =
      (work.run.run (env.extend name known)).bind fun out => some (out.1, out.2.leave) := rfl
  rw [Keeps, hrun, h]
  rfl

theorem Keeps.mapM {f : β → Stacked α} {f' : β → Except ExprError α} {bs : List β}
    (h : ∀ b ∈ bs, Keeps (f b) env (f' b)) : Keeps (bs.mapM f) env (bs.mapM f') := by
  induction bs with
  | nil => exact keeps_pure [] env
  | cons b bs ih =>
    rw [List.forall_mem_cons] at h
    rw [List.mapM_cons, List.mapM_cons]
    exact h.1.bind fun a _ => (ih h.2).bind fun as _ => keeps_pure (a :: as) env

section Fold

variable {kind : Quantifier} {term : Float → Stacked Float} {term' : Float → Except ExprError Float}

theorem Keeps.foldTerms (h : ∀ i, Keeps (term i) env (term' i)) (step : Float) (count : Nat)
    (i acc : Float) : Keeps (foldTerms kind term step count i acc) env
      (Expr.foldTerms kind term' step count i acc) := by
  induction count generalizing i acc with
  | zero => exact keeps_pure acc env
  | succ count ih =>
    have hterms : Expr.foldTerms kind term' step (count + 1) i acc = (term' i >>= fun v =>
        Expr.foldTerms kind term' step count (i + step) (kind.combine acc v)) := by
      rw [Expr.foldTerms]
      cases term' i <;> rfl
    rw [hterms]
    exact (h i).bind fun v _ => ih (i + step) (kind.combine acc v)

theorem Keeps.fold (h : ∀ i, Keeps (term i) env (term' i)) (first last : Float) :
    Keeps (fold kind term first last) env (Expr.fold kind term' first last) :=
  (keeps_ofExcept _ env).bind fun count _ => .foldTerms h _ count first kind.identity

end Fold

end Keeps

end Stacked

namespace Expr

open Stacked (Keeps)

/-- What a sum or product becomes once its ends and its body are reduced, in which `call` reduces
what is left of the body. -/
def quantifyStep (call : Expr → Stacked Residue) (kind : Quantifier) (index : String)
    (f l b : Residue) : Stacked Residue :=
  match f.expr.value?, l.expr.value?, b.unknowns.erase index with
  | some x, some y, [] => do
    let term := fun i => do
      MonadExcept.ofExcept (← Stacked.within index (some i) (call b.expr)).finish
    return .lit (← Stacked.fold kind term x y)
  | _, _, _ => return f.quantified kind index l b

/-- One reduction, in which `call` reduces what that takes. -/
def reduceStep (call : Expr → Stacked Residue) : Expr → Stacked Residue
  | .lit v => return .lit v
  | .var name => do
    match (← get).lookup name with
    | some v => return .lit v
    | none => return ⟨.var name, [name]⟩
  | .unary sign operand => do
    return (← call operand).unary sign
  | .binary op lhs rhs => do
    let l ← call lhs
    let r ← call rhs
    return l.binary op r
  | .call name args =>
    match Builtin.find? name with
    | none => throw (.unknownFunction name)
    | some f =>
      if f.arity = args.length then do return .call name f (← args.mapM call)
      else throw (.arityMismatch name f.arity args.length)
  | .quantified kind index first last body => do
    let f ← call first
    let l ← call last
    let b ← Stacked.within index none (call body)
    quantifyStep call kind index f l b
  | .bind name value rest => do
    let v ← call value
    match v.expr.value? with
    | some x => Stacked.within name (some x) (call rest)
    | none => return v.bind name (← Stacked.within name none (call rest))

/-- Reduction on a stack with at most `depth` calls nested in each other. -/
def reduceNested : Nat → Expr → Stacked Residue
  | 0 => fun _ _ => none
  | depth + 1 => reduceStep (reduceNested depth)

theorem keeps_quantifyStep {call : Expr → Stacked Residue} {kind : Quantifier} {index : String}
    {f l b : Residue} {env : Env}
    (h : ∀ i, Keeps (call b.expr) (env.extend index (some i))
      (b.expr.reduce (env.extend index (some i)))) :
    Keeps (quantifyStep call kind index f l b) env (quantify reduce kind index f l b env) := by
  have hterm : ∀ i, Keeps
      (do MonadExcept.ofExcept (← Stacked.within index (some i) (call b.expr)).finish) env
      (do (← b.expr.reduce (env.extend index (some i))).finish) := fun i =>
    (h i).within.bind fun r _ => Stacked.keeps_ofExcept r.finish env
  unfold quantifyStep quantify
  cases f.expr.value? with
  | none => exact Stacked.keeps_pure _ env
  | some x =>
    cases l.expr.value? with
    | none => exact Stacked.keeps_pure _ env
    | some y =>
      cases b.unknowns.erase index with
      | cons name names => exact Stacked.keeps_pure _ env
      | nil => exact (Keeps.fold hterm x y).bind fun v _ => Stacked.keeps_pure _ env

/-- If the calls that a reduction makes give what they should and leave the stack as it was, then so
does the reduction. -/
theorem keeps_reduceStep {call : Expr → Stacked Residue} {e : Expr} {env : Env}
    (h : ∀ e' env', Calls (e', env') (e, env) → Keeps (call e') env' (e'.reduce env')) :
    Keeps (reduceStep call e) env (e.reduce env) := by
  cases e with
  | lit v => exact Stacked.keeps_pure _ env
  | var name =>
    rw [reduceStep, Stacked.keeps_get_bind_iff, reduce_var]
    cases env.lookup name with
    | some v => exact Stacked.keeps_pure _ env
    | none => exact Stacked.keeps_pure _ env
  | unary sign operand =>
    rw [reduceStep, reduce_unary]
    exact (h _ _ .operand).bind fun r _ => Stacked.keeps_pure _ env
  | binary op lhs rhs =>
    rw [reduceStep, reduce_binary]
    exact (h _ _ .lhs).bind fun l _ => (h _ _ .rhs).bind fun r _ => Stacked.keeps_pure _ env
  | call name args =>
    rw [reduceStep, reduce_call]
    cases Builtin.find? name with
    | none => exact Stacked.keeps_throw _ env
    | some f =>
      by_cases ha : f.arity = args.length
      · simp only [if_pos ha]
        exact (Keeps.mapM fun e he => h e env (.argument he)).bind fun rs _ =>
          Stacked.keeps_pure _ env
      · simp only [if_neg ha]
        exact Stacked.keeps_throw _ env
  | quantified kind index first last body =>
    rw [reduceStep, reduce_quantified]
    exact (h _ _ .first).bind fun f _ => (h _ _ .last).bind fun l _ =>
      (h _ _ .body).within.bind fun b hb => keeps_quantifyStep fun i => h _ _ (.term hb i)
  | bind name value rest =>
    rw [reduceStep, reduce_bind]
    refine (h _ _ .value).bind fun v _ => ?_
    cases v.expr.value? with
    | some x => exact (h _ _ (.rest _)).within
    | none => exact (h _ _ (.rest _)).within.bind fun r _ => Stacked.keeps_pure _ env

theorem keeps_reduceNested {depth : Nat} {e : Expr} (h : e.nodes ≤ depth) (env : Env) :
    Keeps (reduceNested depth e) env (e.reduce env) := by
  induction depth generalizing e env with
  | zero => exact absurd (nodes_pos e) (by omega)
  | succ depth ih =>
    refine keeps_reduceStep fun e' env' hcall => ih ?_ env'
    have hlt : e'.nodes < e.nodes := hcall.nodes_lt
    omega

/-- No reduction adds to an expression, neither nodes nor sums and products within each other. So
none calls for others without end, though it reduces what is left of a body anew for every term, and
on one stack it gives the same and leaves the stack as it found it, whether it succeeds or not. -/
theorem reduction_ends (e : Expr) (env : Env) :
    (∀ r, e.reduce env = .ok r → r.expr.nodes ≤ e.nodes ∧
      r.expr.quantifierDepth ≤ e.quantifierDepth ∧ r.expr.nesting ≤ e.nesting) ∧
    WellFounded Calls ∧
    ∀ depth ≥ e.nodes, (reduceNested depth e).run.run env = some (e.reduce env, env) := by
  refine ⟨fun r hr => ?_, wellFounded_calls, fun _ hdepth => keeps_reduceNested hdepth env⟩
  have hreduces := reduces hr
  exact ⟨hreduces.size_le growing_nodes, hreduces.quantifierDepth_le,
    hreduces.size_le growing_nesting⟩

/-- A sum whose body is half known: its binding goes, and the open name stays. -/
theorem reduction_ends_scaled :
    let e : Expr := .quantified .sum "i" (.lit 1.0) (.var "n")
      (.bind "y" (.var "k") (.binary .multiply (.var "y") (.var "x")))
    let env : Env := ⟨[("k", 3.0)], [("x", none), ("n", some 2.0)]⟩
    ∃ r, e.reduce env = .ok r ∧ e.nodes ≤ 8 ∧ r.expr.nodes ≤ e.nodes ∧
      r.expr.quantifierDepth ≤ e.quantifierDepth ∧ r.expr.nesting ≤ e.nesting ∧
      (reduceNested 8 e).run.run env = some (.ok r, env) := by
  intro e env
  obtain ⟨hsize, -, hstack⟩ := reduction_ends e env
  have hr : e.reduce env = .ok ⟨.quantified .sum "i" (.lit 1.0) (.lit 2.0)
      (.binary .multiply (.lit 3.0) (.var "x")), ["x"]⟩ := rfl
  obtain ⟨hle, hdepth, hnesting⟩ := hsize _ hr
  have hnodes : e.nodes ≤ 8 := by decide
  exact ⟨_, hr, hnodes, hle, hdepth, hnesting, hr ▸ hstack 8 hnodes⟩

end Expr

end DifferentialAnalyzer
