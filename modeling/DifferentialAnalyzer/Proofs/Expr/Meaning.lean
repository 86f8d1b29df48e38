import Mathlib.Data.List.Iterate
import DifferentialAnalyzer.Proofs.FloatOrder
import DifferentialAnalyzer.Proofs.Expr.Staging

/-! What an expression means, said without residues: its operands have values, and its names are
looked up where they stand. Evaluation, although it reduces bodies with an open index before it
folds them, gives this meaning and no other. -/

namespace DifferentialAnalyzer

theorem Builtin.call?_isSome_iff {f : Builtin} {vs : List Float} :
    (f.call? vs).isSome = true ↔ f.arity = vs.length := by
  cases f with
  | unary g => rcases vs with _ | ⟨a, _ | ⟨b, vs⟩⟩ <;> simp [call?, arity]
  | binary g => rcases vs with _ | ⟨a, _ | ⟨b, _ | ⟨c, vs⟩⟩⟩ <;> simp [call?, arity]

namespace Expr

/-- The whole numbers from one to another, up or down, if there are at most a million. -/
def indices (first last : Float) : Option (List Float) :=
  if isIntegral first ∧ isIntegral last ∧ (last - first).abs < 1000000.0 then
    let step := if last < first then -1.0 else 1.0
    some (List.iterate (· + step) first ((last - first).abs.toUInt64.toNat + 1))
  else none

mutual

/-- The value, if there is one, under bindings and local names, of which the first counts. -/
def denote (b : Bindings) : Expr → List (String × Float) → Option Float
  | .lit v, _ => some v
  | .var name, locals =>
    (locals.lookup name).or ((b.get? name).or (Builtin.constant? name))
  | .unary sign operand, locals => do
    let x ← operand.denote b locals
    some (sign.apply x)
  | .binary op lhs rhs, locals => do
    let x ← lhs.denote b locals
    let y ← rhs.denote b locals
    some (op.apply x y)
  | .call name args, locals => do
    let f ← Builtin.find? name
    let vs ← denoteArgs b args locals
    f.call? vs
  | .quantified kind index first last body, locals => do
    let x ← first.denote b locals
    let y ← last.denote b locals
    let is ← indices x y
    let vs ← is.mapM fun i => body.denote b ((index, i) :: locals)
    some (vs.foldl kind.combine kind.identity)
  | .bind name value rest, locals => do
    let x ← value.denote b locals
    rest.denote b ((name, x) :: locals)

def denoteArgs (b : Bindings) : List Expr → List (String × Float) → Option (List Float)
  | [], _ => some []
  | e :: es, locals => do
    let v ← e.denote b locals
    let vs ← denoteArgs b es locals
    some (v :: vs)

end

theorem denoteArgs_eq (b : Bindings) (es : List Expr) (locals : List (String × Float)) :
    denoteArgs b es locals = es.mapM (·.denote b locals) := by
  induction es with
  | nil => rfl
  | cons e es ih => rw [denoteArgs, List.mapM_cons, ih]; rfl

section Fold

variable {kind : Quantifier} {term : Float → Except ExprError Float}

theorem foldTerms_eq_ok_iff {step : Float} {count : Nat} {i acc v : Float} :
    foldTerms kind term step count i acc = .ok v ↔
      ∃ vs, List.Forall₂ (fun j w => term j = .ok w) (List.iterate (· + step) i count) vs ∧
        vs.foldl kind.combine acc = v := by
  induction count generalizing i acc with
  | zero => simp [foldTerms]
  | succ count ih =>
    rw [foldTerms, List.iterate]
    cases hi : term i with
    | error e => simp [List.forall₂_cons_left_iff, hi]
    | ok w =>
      simp only [ih, List.forall₂_cons_left_iff, hi, Except.ok.injEq]
      constructor
      · rintro ⟨vs, hvs, rfl⟩
        exact ⟨w :: vs, ⟨w, vs, rfl, hvs, rfl⟩, rfl⟩
      · rintro ⟨ws, ⟨w', vs, rfl, hvs, rfl⟩, rfl⟩
        exact ⟨vs, hvs, rfl⟩

theorem isNaN_of_isIntegral {x : Float} (h : isIntegral x = true) : x.isNaN = false := by
  rw [isIntegral, Bool.and_eq_true] at h
  exact Binary64.isNaN_of_isFinite h.1

theorem termCount_eq_ok_iff {first last : Float} {n : Nat} :
    termCount kind first last = .ok n ↔
      (isIntegral first ∧ isIntegral last ∧ (last - first).abs < 1000000.0) ∧
        (last - first).abs.toUInt64.toNat + 1 = n := by
  unfold termCount
  by_cases hint : isIntegral first ∧ isIntegral last
  · obtain ⟨hf, hl⟩ := hint
    have hspan : (last - first).abs ≥ maxTerms.toFloat ↔ ¬ (last - first).abs < 1000000.0 := by
      have hnan : (last - first).abs.isNaN = false := by
        rw [Binary64.isNaN_abs]
        rw [isIntegral, Bool.and_eq_true] at hf hl
        exact Binary64.isNaN_sub hl.1 hf.1
      have hmax : maxTerms.toFloat = 1000000.0 := by decide +kernel
      rw [hmax, ← Binary64.not_le_iff_lt (by decide +kernel) hnan, not_not]
    by_cases hlt : (last - first).abs < 1000000.0 <;> simp [hf, hl, hspan, hlt]
  · have hneg : (!(isIntegral first && isIntegral last)) = true := by
      rw [Bool.not_eq_true', ← Bool.not_eq_true, Bool.and_eq_true]
      exact hint
    rw [if_pos hneg]
    constructor
    · intro h
      cases h
    · rintro ⟨⟨hf, hl, -⟩, -⟩
      exact absurd ⟨hf, hl⟩ hint

theorem step_eq {first last : Float} (hf : isIntegral first = true) (hl : isIntegral last = true) :
    (if first <= last then 1.0 else -1.0) = if last < first then -1.0 else (1.0 : Float) := by
  have hnot := Binary64.not_le_iff_lt (isNaN_of_isIntegral hf) (isNaN_of_isIntegral hl)
  by_cases hle : first ≤ last <;> simp [hle, ← hnot]

/-- A sum or product has a value if its range is one and all of its terms have values. -/
theorem fold_eq_ok_iff {first last v : Float} :
    fold kind term first last = .ok v ↔
      ∃ is vs, indices first last = some is ∧ List.Forall₂ (fun i w => term i = .ok w) is vs ∧
        vs.foldl kind.combine kind.identity = v := by
  rw [fold, bind_eq_ok_iff]
  simp only [termCount_eq_ok_iff, foldTerms_eq_ok_iff]
  constructor
  · rintro ⟨n, ⟨hrange, rfl⟩, vs, hvs, rfl⟩
    rw [step_eq hrange.1 hrange.2.1] at hvs
    exact ⟨_, vs, if_pos hrange, hvs, rfl⟩
  · rintro ⟨is, vs, his, hvs, rfl⟩
    unfold indices at his
    split at his
    next hrange =>
      obtain rfl := Option.some.inj his
      rw [← step_eq hrange.1 hrange.2.1] at hvs
      exact ⟨_, ⟨hrange, rfl⟩, vs, hvs, rfl⟩
    · cases his

/-- There is a first term. -/
theorem exists_term_of_fold_eq_ok {first last v : Float} (h : fold kind term first last = .ok v) :
    ∃ w, term first = .ok w := by
  obtain ⟨is, vs, his, hvs, -⟩ := fold_eq_ok_iff.mp h
  unfold indices at his
  split at his
  · obtain rfl := Option.some.inj his
    rw [List.iterate, List.forall₂_cons_left_iff] at hvs
    obtain ⟨w, -, hw, -⟩ := hvs
    exact ⟨w, hw⟩
  · cases his

end Fold

section Value

variable {env : Env} {v : Float}

/-- The number that an expression reduces to. -/
def value (e : Expr) (env : Env) : Except ExprError Float := do
  (← e.reduce env).finish

theorem finish_eq_ok_iff {r : Residue} : r.finish = .ok v ↔ r.expr.value? = some v := by
  rw [Residue.finish, value?_eq_some_iff]
  cases r.expr <;> simp

theorem value_eq_ok_iff {e : Expr} :
    e.value env = .ok v ↔ ∃ r, e.reduce env = .ok r ∧ r.expr.value? = some v := by
  simp only [value, bind_eq_ok_iff, finish_eq_ok_iff]

theorem value_var_iff {name : String} :
    (Expr.var name).value env = .ok v ↔ env.lookup name = some v := by
  rw [value_eq_ok_iff, reduce_var]
  cases env.lookup name <;> simp [value?, Residue.lit]

theorem value_unary_iff {sign : Sign} {e : Expr} :
    (Expr.unary sign e).value env = .ok v ↔ ∃ x, e.value env = .ok x ∧ sign.apply x = v := by
  have hunary : ∀ r : Residue, (r.unary sign).expr.value? = some v ↔
      ∃ x, r.expr.value? = some x ∧ sign.apply x = v := by
    intro r
    unfold Residue.unary
    cases hr : r.expr.value? <;> simp [value?]
  simp only [value_eq_ok_iff, reduce_unary, bind_eq_ok_iff, Except.ok.injEq]
  constructor
  · rintro ⟨_, ⟨r, hr, rfl⟩, hv⟩
    obtain ⟨x, hx, rfl⟩ := (hunary r).mp hv
    exact ⟨x, ⟨r, hr, hx⟩, rfl⟩
  · rintro ⟨x, ⟨r, hr, hx⟩, rfl⟩
    exact ⟨_, ⟨r, hr, rfl⟩, (hunary r).mpr ⟨x, hx, rfl⟩⟩

theorem value_binary_iff {op : Operator} {lhs rhs : Expr} :
    (Expr.binary op lhs rhs).value env = .ok v ↔
      ∃ x y, lhs.value env = .ok x ∧ rhs.value env = .ok y ∧ op.apply x y = v := by
  have hbinary : ∀ l r : Residue, (l.binary op r).expr.value? = some v ↔
      ∃ x y, l.expr.value? = some x ∧ r.expr.value? = some y ∧ op.apply x y = v := by
    intro l r
    unfold Residue.binary
    cases hl : l.expr.value? <;> cases hr : r.expr.value? <;> simp [value?]
  simp only [value_eq_ok_iff, reduce_binary, bind_eq_ok_iff, Except.ok.injEq]
  constructor
  · rintro ⟨_, ⟨l, hl, r, hr, rfl⟩, hv⟩
    obtain ⟨x, y, hx, hy, rfl⟩ := (hbinary l r).mp hv
    exact ⟨x, y, ⟨l, hl, hx⟩, ⟨r, hr, hy⟩, rfl⟩
  · rintro ⟨x, y, ⟨l, hl, hx⟩, ⟨r, hr, hy⟩, rfl⟩
    exact ⟨_, ⟨l, hl, r, hr, rfl⟩, (hbinary l r).mpr ⟨x, y, hx, hy, rfl⟩⟩

theorem value_bind_iff {name : String} {value rest : Expr} :
    (Expr.bind name value rest).value env = .ok v ↔
      ∃ x, value.value env = .ok x ∧ rest.value (env.extend name (some x)) = .ok v := by
  simp only [value_eq_ok_iff, reduce_bind, bind_eq_ok_iff]
  constructor
  · rintro ⟨r, ⟨w, hw, hr⟩, hv⟩
    cases hx : w.expr.value? with
    | some x =>
      simp only [hx] at hr
      exact ⟨x, ⟨w, hw, hx⟩, r, hr, hv⟩
    | none =>
      -- What is held back is no number.
      simp only [hx] at hr
      obtain ⟨r', -, he⟩ := bind_eq_ok_iff.mp hr
      simp [← Except.ok.inj he, Residue.bind, value?] at hv
  · rintro ⟨x, ⟨w, hw, hx⟩, r, hr, hv⟩
    exact ⟨r, ⟨w, hw, by simpa only [hx] using hr⟩, hv⟩

theorem value_call_iff {name : String} {args : List Expr} :
    (Expr.call name args).value env = .ok v ↔
      ∃ f vs, Builtin.find? name = some f ∧
        List.Forall₂ (fun e w => e.value env = .ok w) args vs ∧ f.call? vs = some v := by
  have hcall : ∀ (f : Builtin) (rs : List Residue), (Residue.call name f rs).expr.value? = some v ↔
      ∃ vs, List.Forall₂ (fun r w => r.expr.value? = some w) rs vs ∧ f.call? vs = some v := by
    intro f rs
    have hargs : (∃ vs, List.Forall₂ (fun r w => r.expr.value? = some w) rs vs ∧
        f.call? vs = some v) ↔ ((rs.map Residue.expr).mapM value?).bind f.call? = some v := by
      simp only [Option.bind_eq_some_iff, mapM_eq_some_iff, List.forall₂_map_left_iff]
    rw [hargs, Residue.call]
    cases ((rs.map Residue.expr).mapM value?).bind f.call? <;> simp [value?]
  simp only [value_eq_ok_iff, reduce_call, ← exists_forall₂_iff]
  cases hf : Builtin.find? name with
  | none => simp
  | some f =>
    by_cases ha : f.arity = args.length
    · simp only [if_pos ha, bind_eq_ok_iff, mapM_eq_ok_iff, Except.ok.injEq]
      constructor
      · rintro ⟨_, ⟨rs, hrs, rfl⟩, hv⟩
        obtain ⟨vs, hvs, hv⟩ := (hcall f rs).mp hv
        exact ⟨f, vs, rfl, ⟨rs, hrs, hvs⟩, hv⟩
      · rintro ⟨g, vs, hg, ⟨rs, hrs, hvs⟩, hv⟩
        obtain rfl := Option.some.inj hg
        exact ⟨_, ⟨rs, hrs, rfl⟩, (hcall f rs).mpr ⟨vs, hvs, hv⟩⟩
    · simp only [if_neg ha]
      constructor
      · rintro ⟨r, hr, -⟩
        cases hr
      · rintro ⟨g, vs, hg, ⟨rs, hrs, hvs⟩, hv⟩
        obtain rfl := Option.some.inj hg
        have harity := Builtin.call?_isSome_iff.mp (Option.isSome_of_eq_some hv)
        rw [← hvs.length_eq, ← hrs.length_eq] at harity
        exact absurd harity ha

/-- Less knowledge does not make reduction fail: where it folds anything, it folds the same. -/
theorem exists_reduce_of_splits {e : Expr} {known rest whole : Env}
    (hs : Env.Splits known rest whole) (h : ∃ r, e.reduce whole = .ok r) :
    ∃ r, e.reduce known = .ok r := by
  obtain ⟨r, h⟩ := h
  induction e generalizing known rest whole r with
  | lit v => exact ⟨_, rfl⟩
  | var name =>
    rw [reduce_var]
    cases known.lookup name <;> exact ⟨_, rfl⟩
  | unary sign e ih =>
    rw [reduce_unary] at h ⊢
    obtain ⟨r', hr, -⟩ := bind_eq_ok_iff.mp h
    obtain ⟨r'', hr⟩ := ih hs r' hr
    exact ⟨_, bind_eq_ok_iff.mpr ⟨r'', hr, rfl⟩⟩
  | binary op lhs rhs ihl ihr =>
    rw [reduce_binary] at h ⊢
    obtain ⟨l, hl, h⟩ := bind_eq_ok_iff.mp h
    obtain ⟨r', hr, -⟩ := bind_eq_ok_iff.mp h
    obtain ⟨l', hl⟩ := ihl hs l hl
    obtain ⟨r'', hr⟩ := ihr hs r' hr
    exact ⟨_, bind_eq_ok_iff.mpr ⟨l', hl, bind_eq_ok_iff.mpr ⟨r'', hr, rfl⟩⟩⟩
  | call name args ih =>
    rw [reduce_call] at h ⊢
    cases hf : Builtin.find? name with
    | none => simp [hf] at h
    | some f =>
      simp only [hf] at h ⊢
      split at h
      next ha =>
        obtain ⟨rs, hrs, -⟩ := bind_eq_ok_iff.mp h
        have hargs := exists_mapM_eq_ok_iff.mp ⟨rs, hrs⟩
        obtain ⟨rs', hrs'⟩ := exists_mapM_eq_ok_iff.mpr fun e hm =>
          (hargs e hm).elim fun r hr => ih e hm hs r hr
        rw [if_pos ha]
        exact ⟨_, bind_eq_ok_iff.mpr ⟨rs', hrs', rfl⟩⟩
      · cases h
  | quantified kind index first last body ihf ihl ihb =>
    have hwhole := h
    rw [reduce_quantified] at h
    obtain ⟨f', hf, h⟩ := bind_eq_ok_iff.mp h
    obtain ⟨l', hl, h⟩ := bind_eq_ok_iff.mp h
    obtain ⟨b', hb, -⟩ := bind_eq_ok_iff.mp h
    obtain ⟨f, hf⟩ := ihf hs f' hf
    obtain ⟨l, hl⟩ := ihl hs l' hl
    obtain ⟨b, hb⟩ := ihb (hs.extend_open index none) b' hb
    rw [reduce_quantified]
    simp only [hf, hl, hb, ok_bind]
    cases hq : quantify reduce kind index f l b known with
    | ok r => exact ⟨r, rfl⟩
    | error err =>
      obtain ⟨x, y, hx, hy, hn⟩ := quantify_eq_error reduce hq
      rw [first.staged.reduce_quantified_eq last.staged body.staged hs hf hl hb hx hy hn, hq]
        at hwhole
      cases hwhole
  | bind name value rest' ihv ihr =>
    rw [reduce_bind] at h ⊢
    obtain ⟨w, hw, h⟩ := bind_eq_ok_iff.mp h
    obtain ⟨v, hv⟩ := ihv hs w hw
    simp only [hv, ok_bind]
    cases hx : v.expr.value? with
    | some x =>
      rw [value.staged.reduce_eq_of_value hs hv hx] at hw
      obtain rfl := Except.ok.inj hw
      simp only [hx] at h
      exact ihr (hs.extend_known name x) r h
    | none =>
      have hrest : ∃ x r', rest'.reduce (whole.extend name x) = .ok r' := by
        cases hy : w.expr.value? with
        | some y =>
          simp only [hy] at h
          exact ⟨some y, r, h⟩
        | none =>
          simp only [hy] at h
          obtain ⟨r', hr', -⟩ := bind_eq_ok_iff.mp h
          exact ⟨none, r', hr'⟩
      obtain ⟨x, r', hr'⟩ := hrest
      obtain ⟨r'', hr''⟩ := ihr (hs.extend_open name x) r' hr'
      exact ⟨_, bind_eq_ok_iff.mpr ⟨r'', hr'', rfl⟩⟩

/-- A body is reduced with its index open first, which changes none of its terms. -/
theorem value_residue {body : Expr} {index : String} {b : Residue}
    (hb : body.reduce (env.extend index none) = .ok b) (i : Float) :
    b.expr.value (env.extend index (some i)) = body.value (env.extend index (some i)) := by
  rw [value, value, body.staged _ _ _ b ((Env.Splits.refl env).extend_open index (some i)) hb]

theorem value_quantified_iff {kind : Quantifier} {index : String} {first last body : Expr} :
    (Expr.quantified kind index first last body).value env = .ok v ↔
      ∃ x y, first.value env = .ok x ∧ last.value env = .ok y ∧
        fold kind (fun i => body.value (env.extend index (some i))) x y = .ok v := by
  have hready : ∀ {f l b : Residue} {x y : Float}, body.reduce (env.extend index none) = .ok b →
      f.expr.value? = some x → l.expr.value? = some y → b.unknowns.erase index = [] →
      quantify reduce kind index f l b env =
        (fold kind (fun i => body.value (env.extend index (some i))) x y >>=
          fun v => .ok (.lit v)) := by
    intro f l b x y hb hx hy hn
    simp only [quantify, hx, hy, hn, ← value_residue hb]
    rfl
  simp only [value_eq_ok_iff (e := Expr.quantified ..), reduce_quantified, bind_eq_ok_iff]
  constructor
  · rintro ⟨r, ⟨f, hf, l, hl, b, hb, hr⟩, hv⟩
    rcases quantify_eq_ok reduce hr with ⟨x, y, w, hx, hy, hn, rfl⟩ | ⟨-, rfl⟩
    · rw [hready hb hx hy hn] at hr
      obtain ⟨w', hw, he⟩ := bind_eq_ok_iff.mp hr
      obtain rfl : w' = w := by simpa [Residue.lit] using he
      obtain rfl := Option.some.inj hv
      exact ⟨x, y, value_eq_ok_iff.mpr ⟨f, hf, hx⟩, value_eq_ok_iff.mpr ⟨l, hl, hy⟩, hw⟩
    · simp [Residue.quantified, value?] at hv
  · rintro ⟨x, y, hx, hy, hv⟩
    obtain ⟨f, hf, hx⟩ := value_eq_ok_iff.mp hx
    obtain ⟨l, hl, hy⟩ := value_eq_ok_iff.mp hy
    -- The first term has a value, so that the body lacks nothing but its index.
    obtain ⟨w, hw⟩ := exists_term_of_fold_eq_ok hv
    obtain ⟨t, ht, hw⟩ := value_eq_ok_iff.mp hw
    obtain ⟨b, hb⟩ := exists_reduce_of_splits
      ((Env.Splits.refl env).extend_open index (some x)) ⟨t, ht⟩
    have hn : b.unknowns.erase index = [] := by
      apply List.eq_nil_iff_forall_not_mem.mpr
      intro n hmem
      obtain ⟨hfree, hopen⟩ := (mem_erase_unknowns_iff ((reduces hb).mem_unknowns_iff n)).mp hmem
      have hmem' := ((reduces ht).mem_unknowns_iff n).mpr
        ⟨hfree.2, by rw [Env.lookup_extend, if_neg hfree.1, hopen]⟩
      rw [(reduces ht).unknowns_eq_nil hw] at hmem'
      exact List.not_mem_nil hmem'
    refine ⟨.lit v, ⟨f, hf, l, hl, b, hb, ?_⟩, rfl⟩
    rw [hready hb hx hy hn, hv]
    rfl

end Value

/-- All local names have values. -/
def filled (b : Bindings) (locals : List (String × Float)) : Env :=
  ⟨b, locals.map fun entry => (entry.1, some entry.2)⟩

theorem filled_extend (b : Bindings) (locals : List (String × Float)) (name : String) (v : Float) :
    (filled b locals).extend name (some v) = filled b ((name, v) :: locals) :=
  rfl

theorem lookup_filled (b : Bindings) (locals : List (String × Float)) (name : String) :
    (filled b locals).lookup name =
      (locals.lookup name).or ((b.get? name).or (Builtin.constant? name)) := by
  induction locals with
  | nil => exact Env.lookup_ofBindings b name
  | cons entry locals ih =>
    rw [← filled_extend, Env.lookup_extend, List.lookup_cons, ih]
    by_cases hn : name = entry.1
    · simp [hn]
    · have hne : (name == entry.1) = false := by simpa using hn
      rw [if_neg hn, hne]

theorem value_eq_ok_iff_denote {e : Expr} {b : Bindings} {locals : List (String × Float)}
    {v : Float} : e.value (filled b locals) = .ok v ↔ e.denote b locals = some v := by
  induction e generalizing locals v with
  | lit w => simp [value, reduce_lit, Residue.finish, Residue.lit, denote]
  | var name => rw [value_var_iff, lookup_filled, denote]
  | unary sign e ih =>
    simp only [value_unary_iff, ih, denote, Option.bind_eq_bind, Option.bind_eq_some_iff,
      Option.some.injEq]
  | binary op lhs rhs ihl ihr =>
    simp only [value_binary_iff, ihl, ihr, denote, Option.bind_eq_bind, Option.bind_eq_some_iff,
      Option.some.injEq, exists_and_left]
  | call name args ih =>
    have hargs : ∀ vs, List.Forall₂ (fun e w => e.value (filled b locals) = .ok w) args vs ↔
        denoteArgs b args locals = some vs := by
      intro vs
      rw [denoteArgs_eq, mapM_eq_some_iff]
      exact forall₂_congr_mem fun e he w => ih e he
    simp only [value_call_iff, hargs, denote, Option.bind_eq_bind, Option.bind_eq_some_iff,
      exists_and_left]
  | quantified kind index first last body ihf ihl ihb =>
    simp only [value_quantified_iff, ihf, ihl, fold_eq_ok_iff, filled_extend, ihb,
      ← mapM_eq_some_iff, denote, Option.bind_eq_bind, Option.bind_eq_some_iff, Option.some.injEq,
      exists_and_left]
  | bind name value rest ihv ihr =>
    simp only [value_bind_iff, ihv, filled_extend, ihr, denote, Option.bind_eq_bind,
      Option.bind_eq_some_iff]

/-- Evaluation gives the meaning of an expression, and fails where it has none. -/
theorem eval_iff_denote (e : Expr) (b : Bindings) :
    (∀ v, e.eval b = .ok v ↔ e.denote b [] = some v) ∧
    ((∃ err, e.eval b = .error err) ↔ e.denote b [] = none) := by
  have hok : ∀ v, e.eval b = .ok v ↔ e.denote b [] = some v :=
    fun v => show e.value (filled b []) = .ok v ↔ _ from value_eq_ok_iff_denote
  refine ⟨hok, ?_⟩
  cases he : e.eval b with
  | ok v => simp [(hok v).mp he]
  | error err => simpa [he, Option.eq_none_iff_forall_ne_some] using hok

/-- Of two local names the inner one counts, and the index runs down to the smaller end. -/
example : (Expr.bind "i" (.lit 7.0) (.quantified .product "i" (.lit 3.0) (.lit 1.0)
    (.binary .subtract (.var "i") (.lit 4.0)))).denote [] [] = some (-6.0) := by
  decide +kernel

end Expr

end DifferentialAnalyzer
