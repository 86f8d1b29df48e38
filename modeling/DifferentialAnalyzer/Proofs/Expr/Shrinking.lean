import DifferentialAnalyzer.Proofs.Expr.Reduction

/-! The size of an expression, which no reduction adds to. What is left of a body is no part of the
sum or product that it is left of, but it is smaller than that, so that reducing it once more for
every term comes to an end. -/

namespace DifferentialAnalyzer

namespace Expr

mutual

def nodes : Expr → Nat
  | .lit _ => 1
  | .var _ => 1
  | .unary _ operand => operand.nodes + 1
  | .binary _ lhs rhs => lhs.nodes + rhs.nodes + 1
  | .call _ args => nodesList args + 1
  | .quantified _ _ first last body => first.nodes + last.nodes + body.nodes + 1
  | .bind _ value rest => value.nodes + rest.nodes + 1

def nodesList : List Expr → Nat
  | [] => 0
  | e :: es => e.nodes + nodesList es

end

theorem nodes_pos (e : Expr) : 0 < e.nodes := by
  cases e <;> simp [nodes]

theorem nodes_le_nodesList {e : Expr} {es : List Expr} (h : e ∈ es) : e.nodes ≤ nodesList es := by
  induction es with
  | nil => cases h
  | cons e' es ih =>
    rw [nodesList]
    rcases List.mem_cons.mp h with rfl | h
    · exact Nat.le_add_right _ _
    · exact Nat.le_trans (ih h) (Nat.le_add_left _ _)

theorem nodesList_mono {es es' : List Expr}
    (h : List.Forall₂ (fun e e' => e.nodes ≤ e'.nodes) es es') : nodesList es ≤ nodesList es' := by
  induction h with
  | nil => exact Nat.le_refl _
  | cons hle _ ih => exact Nat.add_le_add hle ih

theorem growing_nodes : Growing nodes where
  lit_le _ e := e.nodes_pos
  unary _ _ _ h := Nat.succ_le_succ h
  binary _ _ _ _ _ hl hr := Nat.succ_le_succ (Nat.add_le_add hl hr)
  call _ _ _ h := Nat.succ_le_succ (nodesList_mono h)
  quantified _ _ _ _ _ _ _ _ hf hl hb :=
    Nat.succ_le_succ (Nat.add_le_add (Nat.add_le_add hf hl) hb)
  bind _ _ _ _ _ hv hr := Nat.succ_le_succ (Nat.add_le_add hv hr)
  rest_le _ _ _ := Nat.le_succ_of_le (Nat.le_add_left _ _)

mutual

/-- How many sums and products lie within each other, be it in a body or at an end of a range. -/
def nesting : Expr → Nat
  | .lit _ => 0
  | .var _ => 0
  | .unary _ operand => operand.nesting
  | .binary _ lhs rhs => max lhs.nesting rhs.nesting
  | .call _ args => nestingList args
  | .quantified _ _ first last body => max (max first.nesting last.nesting) body.nesting + 1
  | .bind _ value rest => max value.nesting rest.nesting

def nestingList : List Expr → Nat
  | [] => 0
  | e :: es => max e.nesting (nestingList es)

end

theorem nestingList_mono {es es' : List Expr}
    (h : List.Forall₂ (fun e e' => e.nesting ≤ e'.nesting) es es') :
    nestingList es ≤ nestingList es' := by
  induction h with
  | nil => exact Nat.le_refl _
  | cons hle _ ih =>
    simp only [nestingList]
    omega

theorem growing_nesting : Growing nesting where
  lit_le _ _ := Nat.zero_le _
  unary _ _ _ h := h
  binary _ _ _ _ _ hl hr := by
    simp only [nesting]
    omega
  call _ _ _ h := nestingList_mono h
  quantified _ _ _ _ _ _ _ _ hf hl hb := by
    simp only [nesting]
    omega
  bind _ _ _ _ _ hv hr := by
    simp only [nesting]
    omega
  rest_le _ _ _ := Nat.le_max_right _ _

/-- Reducing the second expression may lead to reducing the first one, each with the names that are
known there. -/
inductive Calls : Expr × Env → Expr × Env → Prop
  | operand {sign : Sign} {e : Expr} {env : Env} : Calls (e, env) (.unary sign e, env)
  | lhs {op : Operator} {lhs rhs : Expr} {env : Env} : Calls (lhs, env) (.binary op lhs rhs, env)
  | rhs {op : Operator} {lhs rhs : Expr} {env : Env} : Calls (rhs, env) (.binary op lhs rhs, env)
  | argument {name : String} {args : List Expr} {e : Expr} {env : Env} (h : e ∈ args) :
      Calls (e, env) (.call name args, env)
  | first {kind : Quantifier} {index : String} {first last body : Expr} {env : Env} :
      Calls (first, env) (.quantified kind index first last body, env)
  | last {kind : Quantifier} {index : String} {first last body : Expr} {env : Env} :
      Calls (last, env) (.quantified kind index first last body, env)
  | body {kind : Quantifier} {index : String} {first last body : Expr} {env : Env} :
      Calls (body, env.extend index none) (.quantified kind index first last body, env)
  /-- What is left of the body, for one value of the index. -/
  | term {kind : Quantifier} {index : String} {first last body : Expr} {env : Env} {b : Residue}
      (h : body.reduce (env.extend index none) = .ok b) (i : Float) :
      Calls (b.expr, env.extend index (some i)) (.quantified kind index first last body, env)
  | value {name : String} {value rest : Expr} {env : Env} :
      Calls (value, env) (.bind name value rest, env)
  | rest {name : String} {value rest : Expr} {env : Env} (known : Option Float) :
      Calls (rest, env.extend name known) (.bind name value rest, env)

theorem Calls.nodes_lt {callee caller : Expr × Env} (h : Calls callee caller) :
    callee.1.nodes < caller.1.nodes := by
  cases h with
  | argument h => exact Nat.lt_succ_of_le (nodes_le_nodesList h)
  | term h i =>
    have hle := (reduces h).size_le growing_nodes
    simp only [nodes]
    omega
  | _ =>
    simp only [nodes]
    omega

theorem wellFounded_calls : WellFounded Calls :=
  Subrelation.wf Calls.nodes_lt
    (InvImage.wf (fun call : Expr × Env => call.1.nodes) Nat.lt_wfRel.wf)

end Expr

end DifferentialAnalyzer
