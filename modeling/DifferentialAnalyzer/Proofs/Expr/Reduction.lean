import DifferentialAnalyzer.Expr.Reduce
import DifferentialAnalyzer.Proofs.Fallible

/-! Reduction without a bound on its depth, as one equation for each form of expression. -/

namespace DifferentialAnalyzer

namespace Residue

/-- The names that are missing in some residues. -/
def allUnknowns (rs : List Residue) : Names :=
  rs.foldr (fun r names => r.unknowns.union names) []

def unary (sign : Sign) (r : Residue) : Residue :=
  match r.expr.value? with
  | some v => ⟨.lit (sign.apply v), r.unknowns⟩
  | none => ⟨.unary sign r.expr, r.unknowns⟩

def binary (op : Operator) (l r : Residue) : Residue :=
  match l.expr.value?, r.expr.value? with
  | some a, some b => ⟨.lit (op.apply a b), l.unknowns.union r.unknowns⟩
  | _, _ => ⟨.binary op l.expr r.expr, l.unknowns.union r.unknowns⟩

def call (name : String) (f : Builtin) (rs : List Residue) : Residue :=
  match ((rs.map expr).mapM Expr.value?).bind f.call? with
  | some v => ⟨.lit v, allUnknowns rs⟩
  | none => ⟨.call name (rs.map expr), allUnknowns rs⟩

def quantified (kind : Quantifier) (index : String) (f l b : Residue) : Residue :=
  ⟨.quantified kind index f.expr l.expr b.expr,
    (f.unknowns.union l.unknowns).union (b.unknowns.erase index)⟩

def bind (name : String) (v r : Residue) : Residue :=
  ⟨.bind name v.expr r.expr, v.unknowns.union (r.unknowns.erase name)⟩

end Residue

namespace Expr

@[elab_as_elim, induction_eliminator]
theorem induction {P : Expr → Prop} (lit : ∀ v, P (.lit v)) (var : ∀ name, P (.var name))
    (unary : ∀ sign e, P e → P (.unary sign e))
    (binary : ∀ op lhs rhs, P lhs → P rhs → P (.binary op lhs rhs))
    (call : ∀ name args, (∀ e ∈ args, P e) → P (.call name args))
    (quantified : ∀ kind index first last body, P first → P last → P body →
      P (.quantified kind index first last body))
    (bind : ∀ name value rest, P value → P rest → P (.bind name value rest)) (e : Expr) : P e :=
  Expr.rec (motive_1 := P) (motive_2 := fun es => ∀ e ∈ es, P e) lit var unary binary call
    quantified bind (by simp) (fun _ _ he hes => List.forall_mem_cons.mpr ⟨he, hes⟩) e

theorem quantifierDepthList_le_iff {es : List Expr} {n : Nat} :
    quantifierDepthList es ≤ n ↔ ∀ e ∈ es, e.quantifierDepth ≤ n := by
  induction es with
  | nil => simp [quantifierDepthList]
  | cons e es ih => rw [quantifierDepthList, Nat.max_le, ih, List.forall_mem_cons]

theorem quantifierDepthList_mono {es es' : List Expr}
    (h : List.Forall₂ (fun e e' => e.quantifierDepth ≤ e'.quantifierDepth) es es') :
    quantifierDepthList es ≤ quantifierDepthList es' := by
  induction h with
  | nil => exact Nat.le_refl _
  | cons hle _ ih =>
    simp only [quantifierDepthList]
    omega

/-- A size that is least for numbers, is not less than that of what a name is bound in, and follows
the sizes of the parts. -/
structure Growing (size : Expr → Nat) : Prop where
  lit_le (v : Float) (e : Expr) : size (.lit v) ≤ size e
  unary (sign : Sign) {e e' : Expr} (h : size e ≤ size e') :
    size (.unary sign e) ≤ size (.unary sign e')
  binary (op : Operator) {lhs lhs' rhs rhs' : Expr} (hl : size lhs ≤ size lhs')
    (hr : size rhs ≤ size rhs') : size (.binary op lhs rhs) ≤ size (.binary op lhs' rhs')
  call (name : String) {args args' : List Expr}
    (h : List.Forall₂ (fun e e' => size e ≤ size e') args args') :
    size (.call name args) ≤ size (.call name args')
  quantified (kind : Quantifier) (index : String) {first first' last last' body body' : Expr}
    (hf : size first ≤ size first') (hl : size last ≤ size last') (hb : size body ≤ size body') :
    size (.quantified kind index first last body) ≤ size (.quantified kind index first' last' body')
  bind (name : String) {value value' rest rest' : Expr} (hv : size value ≤ size value')
    (hr : size rest ≤ size rest') : size (.bind name value rest) ≤ size (.bind name value' rest')
  rest_le (name : String) (value rest : Expr) : size rest ≤ size (.bind name value rest)

theorem growing_quantifierDepth : Growing quantifierDepth where
  lit_le _ _ := Nat.zero_le _
  unary _ _ _ h := h
  binary _ _ _ _ _ hl hr := by
    simp only [quantifierDepth]
    omega
  call _ _ _ h := quantifierDepthList_mono h
  quantified _ _ _ _ _ _ _ _ hf hl hb := by
    simp only [quantifierDepth]
    omega
  bind _ _ _ _ _ hv hr := by
    simp only [quantifierDepth]
    omega
  rest_le _ _ _ := Nat.le_max_right _ _

/-- Induction that reaches, below a sum or product, every expression nested no deeper than its
body: what is left of a body is of that kind. -/
theorem induction_on_depth {P : Expr → Prop} (lit : ∀ v, P (.lit v)) (var : ∀ name, P (.var name))
    (unary : ∀ sign e, P e → P (.unary sign e))
    (binary : ∀ op lhs rhs, P lhs → P rhs → P (.binary op lhs rhs))
    (call : ∀ name args, (∀ e ∈ args, P e) → P (.call name args))
    (quantified : ∀ kind index first last body, P first → P last →
      (∀ e : Expr, e.quantifierDepth ≤ body.quantifierDepth → P e) →
      P (.quantified kind index first last body))
    (bind : ∀ name value rest, P value → P rest → P (.bind name value rest)) (e : Expr) : P e := by
  have hall : ∀ n (e : Expr), e.quantifierDepth ≤ n → P e := by
    intro n
    induction n using Nat.strongRecOn with
    | _ n deeper =>
      intro e he
      induction e with
      | lit v => exact lit v
      | var name => exact var name
      | unary sign e ih => exact unary sign e (ih he)
      | binary op lhs rhs ihl ihr =>
        obtain ⟨hl, hr⟩ := Nat.max_le.mp he
        exact binary op lhs rhs (ihl hl) (ihr hr)
      | call name args ih =>
        have hargs := quantifierDepthList_le_iff.mp he
        exact call name args fun e hm => ih e hm (hargs e hm)
      | quantified kind index first last body ihf ihl _ =>
        obtain ⟨hmax, hbody⟩ := Nat.max_le.mp he
        obtain ⟨hfirst, hlast⟩ := Nat.max_le.mp hmax
        exact quantified kind index first last body (ihf hfirst) (ihl hlast)
          fun e hle => deeper e.quantifierDepth (by omega) e (Nat.le_refl _)
      | bind name value rest ihv ihr =>
        obtain ⟨hv, hr⟩ := Nat.max_le.mp he
        exact bind name value rest (ihv hv) (ihr hr)
  exact hall _ e (Nat.le_refl _)

section Again

variable (again : Expr → Env → Except ExprError Residue)

/-- What a sum or product becomes once its ends and its body are reduced. -/
def quantify (kind : Quantifier) (index : String) (f l b : Residue) (env : Env) :
    Except ExprError Residue :=
  match f.expr.value?, l.expr.value?, b.unknowns.erase index with
  | some x, some y, [] => do
    .ok (.lit (← fold kind (fun i => do (← again b.expr (env.extend index (some i))).finish) x y))
  | _, _, _ => .ok (f.quantified kind index l b)

theorem reduceWith_unary (sign : Sign) (e : Expr) (env : Env) :
    reduceWith again (.unary sign e) env =
      (reduceWith again e env >>= fun r => .ok (r.unary sign)) := by
  rw [reduceWith]
  refine bind_congr_ok fun r _ => ?_
  rw [Residue.unary]
  cases r.expr <;> rfl

theorem reduceWith_binary (op : Operator) (lhs rhs : Expr) (env : Env) :
    reduceWith again (.binary op lhs rhs) env =
      (reduceWith again lhs env >>= fun l =>
        reduceWith again rhs env >>= fun r => .ok (l.binary op r)) := by
  rw [reduceWith]
  refine bind_congr_ok fun l _ => bind_congr_ok fun r _ => ?_
  rw [Residue.binary]
  cases l.expr.value? <;> cases r.expr.value? <;> rfl

theorem reduceArgs_eq (args : List Expr) (env : Env) :
    reduceArgs again args env =
      (args.mapM (reduceWith again · env) >>= fun rs =>
        .ok (rs.map Residue.expr, Residue.allUnknowns rs)) := by
  induction args with
  | nil => rfl
  | cons e args ih =>
    rw [reduceArgs, List.mapM_cons, bind_assoc]
    refine bind_congr_ok fun r _ => ?_
    rw [ih, bind_assoc, bind_assoc]
    rfl

theorem reduceWith_call (name : String) (args : List Expr) (env : Env) :
    reduceWith again (.call name args) env =
      match Builtin.find? name with
      | none => .error (.unknownFunction name)
      | some f =>
        if f.arity = args.length then
          args.mapM (reduceWith again · env) >>= fun rs => .ok (.call name f rs)
        else .error (.arityMismatch name f.arity args.length) := by
  rw [reduceWith]
  cases Builtin.find? name with
  | none => rfl
  | some f =>
    simp only [reduceArgs_eq, bind_assoc]
    refine if_congr Iff.rfl (bind_congr_ok fun rs _ => ?_) rfl
    rw [Residue.call]
    simp only [ok_bind]
    cases ((rs.map Residue.expr).mapM value?).bind f.call? <;> rfl

theorem reduceWith_quantified (kind : Quantifier) (index : String) (first last body : Expr)
    (env : Env) : reduceWith again (.quantified kind index first last body) env =
      (reduceWith again first env >>= fun f =>
        reduceWith again last env >>= fun l =>
          reduceWith again body (env.extend index none) >>= fun b =>
            quantify again kind index f l b env) := by
  rw [reduceWith]
  rfl

theorem reduceWith_bind (name : String) (value rest : Expr) (env : Env) :
    reduceWith again (.bind name value rest) env =
      (reduceWith again value env >>= fun v =>
        match v.expr.value? with
        | some x => reduceWith again rest (env.extend name (some x))
        | none =>
          reduceWith again rest (env.extend name none) >>= fun r => .ok (v.bind name r)) := by
  rw [reduceWith]
  rfl

/-- The ways in which a reduction succeeds. -/
inductive Reduces : Expr → Env → Residue → Prop
  | lit {v : Float} {env : Env} : Reduces (.lit v) env (.lit v)
  | known {name : String} {env : Env} {v : Float} (hv : env.lookup name = some v) :
      Reduces (.var name) env (.lit v)
  | unknown {name : String} {env : Env} (hv : env.lookup name = none) :
      Reduces (.var name) env ⟨.var name, [name]⟩
  | unary {sign : Sign} {e : Expr} {env : Env} {r : Residue} (hr : Reduces e env r) :
      Reduces (.unary sign e) env (r.unary sign)
  | binary {op : Operator} {lhs rhs : Expr} {env : Env} {l r : Residue} (hl : Reduces lhs env l)
      (hr : Reduces rhs env r) : Reduces (.binary op lhs rhs) env (l.binary op r)
  | call {name : String} {f : Builtin} {args : List Expr} {env : Env} {rs : List Residue}
      (hf : Builtin.find? name = some f) (ha : f.arity = args.length)
      (hlen : args.length = rs.length) (hrs : ∀ e r, (e, r) ∈ args.zip rs → Reduces e env r) :
      Reduces (.call name args) env (.call name f rs)
  | folded {kind : Quantifier} {index : String} {first last body : Expr} {env : Env}
      {f l b : Residue} {x y v : Float} (hf : Reduces first env f) (hl : Reduces last env l)
      (hb : Reduces body (env.extend index none) b) (hx : f.expr.value? = some x)
      (hy : l.expr.value? = some y) (hn : b.unknowns.erase index = []) :
      Reduces (.quantified kind index first last body) env (.lit v)
  | left {kind : Quantifier} {index : String} {first last body : Expr} {env : Env}
      {f l b : Residue} (hf : Reduces first env f) (hl : Reduces last env l)
      (hb : Reduces body (env.extend index none) b)
      (hopen : f.expr.value? = none ∨ l.expr.value? = none ∨ b.unknowns.erase index ≠ []) :
      Reduces (.quantified kind index first last body) env (f.quantified kind index l b)
  | bound {name : String} {value rest : Expr} {env : Env} {v r : Residue} {x : Float}
      (hv : Reduces value env v) (hx : v.expr.value? = some x)
      (hr : Reduces rest (env.extend name (some x)) r) : Reduces (.bind name value rest) env r
  | held {name : String} {value rest : Expr} {env : Env} {v r : Residue}
      (hv : Reduces value env v) (hx : v.expr.value? = none)
      (hr : Reduces rest (env.extend name none) r) :
      Reduces (.bind name value rest) env (v.bind name r)

/-- The environment matters only for terms, and only for a body that needs nothing but its index. -/
theorem quantify_congr {kind : Quantifier} {index : String} {f l b : Residue} {env env' : Env}
    (h : b.unknowns.erase index = [] → ∀ i,
      again b.expr (env.extend index (some i)) = again b.expr (env'.extend index (some i))) :
    quantify again kind index f l b env = quantify again kind index f l b env' := by
  unfold quantify
  split
  next hn => simp only [h hn]
  · rfl

theorem quantify_eq_ok {kind : Quantifier} {index : String} {f l b r : Residue} {env : Env}
    (h : quantify again kind index f l b env = .ok r) :
    (∃ x y v, f.expr.value? = some x ∧ l.expr.value? = some y ∧ b.unknowns.erase index = [] ∧
      r = .lit v) ∨
    ((f.expr.value? = none ∨ l.expr.value? = none ∨ b.unknowns.erase index ≠ []) ∧
      r = f.quantified kind index l b) := by
  unfold quantify at h
  split at h
  next x y hx hy hn =>
    obtain ⟨v, -, hv⟩ := bind_eq_ok_iff.mp h
    exact .inl ⟨x, y, v, hx, hy, hn, (Except.ok.inj hv).symm⟩
  next hopen =>
    refine .inr ⟨?_, (Except.ok.inj h).symm⟩
    cases hx : f.expr.value? with
    | none => exact .inl rfl
    | some x =>
      cases hy : l.expr.value? with
      | none => exact .inr (.inl rfl)
      | some y => exact .inr (.inr (hopen x y hx hy))

/-- Only what is ready to be folded can fail. -/
theorem quantify_eq_error {kind : Quantifier} {index : String} {f l b : Residue} {env : Env}
    {err : ExprError} (h : quantify again kind index f l b env = .error err) :
    ∃ x y, f.expr.value? = some x ∧ l.expr.value? = some y ∧ b.unknowns.erase index = [] := by
  unfold quantify at h
  split at h
  next x y hx hy hn => exact ⟨x, y, hx, hy, hn⟩
  · cases h

theorem reduces_of_reduceWith {e : Expr} {env : Env} {r : Residue}
    (h : reduceWith again e env = .ok r) : Reduces e env r := by
  induction e generalizing env r with
  | lit v =>
    obtain rfl : Residue.lit v = r := by simpa [reduceWith] using h
    exact .lit
  | var name =>
    rw [reduceWith] at h
    cases hv : env.lookup name with
    | some v =>
      obtain rfl : Residue.lit v = r := by simpa [hv] using h
      exact .known hv
    | none =>
      obtain rfl : ⟨.var name, [name]⟩ = r := by simpa [hv] using h
      exact .unknown hv
  | unary sign e ih =>
    rw [reduceWith_unary] at h
    obtain ⟨r', hr, he⟩ := bind_eq_ok_iff.mp h
    exact Except.ok.inj he ▸ .unary (ih hr)
  | binary op lhs rhs ihl ihr =>
    rw [reduceWith_binary] at h
    obtain ⟨l, hl, h⟩ := bind_eq_ok_iff.mp h
    obtain ⟨r', hr, he⟩ := bind_eq_ok_iff.mp h
    exact Except.ok.inj he ▸ .binary (ihl hl) (ihr hr)
  | call name args ih =>
    rw [reduceWith_call] at h
    split at h
    · exact absurd h (by simp)
    next f hf =>
      split at h
      next ha =>
        obtain ⟨rs, hrs, he⟩ := bind_eq_ok_iff.mp h
        obtain ⟨hlen, hzip⟩ := List.forall₂_iff_zip.mp (mapM_eq_ok_iff.mp hrs)
        exact Except.ok.inj he ▸
          .call hf ha hlen fun e r hm => ih e (List.of_mem_zip hm).1 (hzip hm)
      · exact absurd h (by simp)
  | quantified kind index first last body ihf ihl ihb =>
    rw [reduceWith_quantified] at h
    obtain ⟨f, hf, h⟩ := bind_eq_ok_iff.mp h
    obtain ⟨l, hl, h⟩ := bind_eq_ok_iff.mp h
    obtain ⟨b, hb, h⟩ := bind_eq_ok_iff.mp h
    rcases quantify_eq_ok again h with ⟨x, y, v, hx, hy, hn, rfl⟩ | ⟨hopen, rfl⟩
    · exact .folded (ihf hf) (ihl hl) (ihb hb) hx hy hn
    · exact .left (ihf hf) (ihl hl) (ihb hb) hopen
  | bind name value rest ihv ihr =>
    rw [reduceWith_bind] at h
    obtain ⟨v, hv, h⟩ := bind_eq_ok_iff.mp h
    split at h
    next x hx => exact .bound (ihv hv) hx (ihr h)
    next hx =>
      obtain ⟨r', hr, he⟩ := bind_eq_ok_iff.mp h
      exact Except.ok.inj he ▸ .held (ihv hv) hx (ihr hr)

/-- What is left of an expression is no larger. -/
theorem Reduces.size_le {size : Expr → Nat} (hs : Growing size) {e : Expr} {env : Env} {r : Residue}
    (h : Reduces e env r) : size r.expr ≤ size e := by
  induction h with
  | lit => exact Nat.le_refl _
  | known hv => exact hs.lit_le _ _
  | unknown hv => exact Nat.le_refl _
  | unary hr ih =>
    unfold Residue.unary
    split
    · exact hs.lit_le _ _
    · exact hs.unary _ ih
  | binary hl hr ihl ihr =>
    unfold Residue.binary
    split
    · exact hs.lit_le _ _
    · exact hs.binary _ ihl ihr
  | @call name f args env rs hf ha hlen hrs ih =>
    unfold Residue.call
    split
    · exact hs.lit_le _ _
    · exact hs.call name (List.forall₂_map_left_iff.mpr
        (List.forall₂_iff_zip.mpr ⟨hlen, fun hm => ih _ _ hm⟩).flip)
  | folded => exact hs.lit_le _ _
  | left hf hl hb hopen ihf ihl ihb => exact hs.quantified _ _ ihf ihl ihb
  | bound hv hx hr ihv ihr => exact Nat.le_trans ihr (hs.rest_le _ _ _)
  | held hv hx hr ihv ihr => exact hs.bind _ ihv ihr

theorem Reduces.quantifierDepth_le {e : Expr} {env : Env} {r : Residue} (h : Reduces e env r) :
    r.expr.quantifierDepth ≤ e.quantifierDepth :=
  h.size_le growing_quantifierDepth

end Again

section Depth

variable {again again' : Expr → Env → Except ExprError Residue}

/-- Only expressions that are nested less deeply are reduced again. -/
theorem reduceWith_congr_again {e : Expr} (h : ∀ e' : Expr,
      e'.quantifierDepth < e.quantifierDepth → ∀ env, again e' env = again' e' env) (env : Env) :
    reduceWith again e env = reduceWith again' e env := by
  induction e generalizing env with
  | lit v => rfl
  | var name => rfl
  | unary sign e ih => rw [reduceWith_unary, reduceWith_unary, ih h]
  | binary op lhs rhs ihl ihr =>
    rw [reduceWith_binary, reduceWith_binary,
      ihl fun e' hlt => h e' (Nat.lt_of_lt_of_le hlt (Nat.le_max_left _ _)),
      ihr fun e' hlt => h e' (Nat.lt_of_lt_of_le hlt (Nat.le_max_right _ _))]
  | call name args ih =>
    have hargs : args.mapM (reduceWith again · env) = args.mapM (reduceWith again' · env) :=
      mapM_congr_mem fun e hm => ih e hm (fun e' hlt => h e' (Nat.lt_of_lt_of_le hlt
        (quantifierDepthList_le_iff.mp (Nat.le_refl _) e hm))) env
    rw [reduceWith_call, reduceWith_call, hargs]
  | quantified kind index first last body ihf ihl ihb =>
    simp only [quantifierDepth] at h
    rw [reduceWith_quantified, reduceWith_quantified, ihf fun e' hlt => h e' (by omega),
      ihl fun e' hlt => h e' (by omega), ihb fun e' hlt => h e' (by omega)]
    refine bind_congr_ok fun f _ => bind_congr_ok fun l _ => bind_congr_ok fun b hb => ?_
    have hle := (reduces_of_reduceWith again' hb).quantifierDepth_le
    simp only [quantify, h b.expr (by omega)]
  | bind name value rest ihv ihr =>
    simp only [quantifierDepth] at h
    simp only [reduceWith_bind, ihv fun e' hlt => h e' (by omega),
      ihr fun e' hlt => h e' (by omega)]

theorem reduceTo_succ {depth : Nat} {e : Expr} (h : e.quantifierDepth ≤ depth) (env : Env) :
    reduceTo (depth + 1) e env = reduceTo depth e env := by
  induction depth generalizing e env with
  | zero => exact reduceWith_congr_again (fun e' hlt => by omega) env
  | succ depth ih => exact reduceWith_congr_again (fun e' hlt env' => ih (by omega) env') env

theorem reduceTo_eq {depth : Nat} {e : Expr} (h : e.quantifierDepth ≤ depth) (env : Env) :
    reduceTo depth e env = e.reduce env := by
  induction h with
  | refl => rfl
  | step hle ih => rw [reduceTo_succ hle, ih]

theorem reduceWith_reduce (e : Expr) (env : Env) : reduceWith reduce e env = e.reduce env := by
  rw [← reduceTo_eq (Nat.le_succ _), reduceTo]
  exact (reduceWith_congr_again (fun e' hlt env' => reduceTo_eq (by omega) env') env).symm

end Depth

section Reduce

theorem reduces {e : Expr} {env : Env} {r : Residue} (h : e.reduce env = .ok r) :
    Reduces e env r :=
  reduces_of_reduceWith reduce ((reduceWith_reduce e env).trans h)

theorem reduce_lit (v : Float) (env : Env) : (Expr.lit v).reduce env = .ok (.lit v) :=
  rfl

theorem reduce_var (name : String) (env : Env) : (Expr.var name).reduce env =
    match env.lookup name with
    | some v => .ok (.lit v)
    | none => .ok ⟨.var name, [name]⟩ :=
  rfl

theorem reduce_unary (sign : Sign) (e : Expr) (env : Env) : (Expr.unary sign e).reduce env =
    (e.reduce env >>= fun r => .ok (r.unary sign)) := by
  simp only [← reduceWith_reduce, reduceWith_unary]

theorem reduce_binary (op : Operator) (lhs rhs : Expr) (env : Env) :
    (Expr.binary op lhs rhs).reduce env =
      (lhs.reduce env >>= fun l => rhs.reduce env >>= fun r => .ok (l.binary op r)) := by
  simp only [← reduceWith_reduce, reduceWith_binary]

theorem reduce_call (name : String) (args : List Expr) (env : Env) :
    (Expr.call name args).reduce env =
      match Builtin.find? name with
      | none => .error (.unknownFunction name)
      | some f =>
        if f.arity = args.length then
          args.mapM (·.reduce env) >>= fun rs => .ok (.call name f rs)
        else .error (.arityMismatch name f.arity args.length) := by
  simp only [← reduceWith_reduce, reduceWith_call]

theorem reduce_quantified (kind : Quantifier) (index : String) (first last body : Expr)
    (env : Env) : (Expr.quantified kind index first last body).reduce env =
      (first.reduce env >>= fun f => last.reduce env >>= fun l =>
        body.reduce (env.extend index none) >>= fun b =>
          quantify reduce kind index f l b env) := by
  rw [← reduceWith_reduce, reduceWith_quantified]
  simp only [reduceWith_reduce]

theorem reduce_bind (name : String) (value rest : Expr) (env : Env) :
    (Expr.bind name value rest).reduce env =
      (value.reduce env >>= fun v =>
        match v.expr.value? with
        | some x => rest.reduce (env.extend name (some x))
        | none => rest.reduce (env.extend name none) >>= fun r => .ok (v.bind name r)) := by
  simp only [← reduceWith_reduce, reduceWith_bind]

end Reduce

end Expr

end DifferentialAnalyzer
