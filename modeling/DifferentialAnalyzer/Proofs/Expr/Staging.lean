import DifferentialAnalyzer.Expr.Compiled
import DifferentialAnalyzer.Proofs.Expr.FreeNames

/-! Reduction in two stages. What the first bindings leave of an expression, reduced under further
bindings, is what all of them together make of the whole expression. -/

namespace DifferentialAnalyzer

theorem Residue.allUnknowns_map_lit (vs : List Float) : allUnknowns (vs.map lit) = [] := by
  induction vs with
  | nil => rfl
  | cons v vs ih => rw [List.map_cons, allUnknowns, List.foldr_cons, ← allUnknowns, ih]; rfl

/-- What is known of the whole environment, and an environment that holds what is open. -/
structure Env.Splits (known rest whole : Env) : Prop where
  fixed : ∀ n v, known.lookup n = some v → whole.lookup n = some v
  deferred : ∀ n, known.lookup n = none → whole.lookup n = rest.lookup n

namespace Env.Splits

variable {known rest whole : Env}

theorem extend_open (h : Splits known rest whole) (name : String) (value : Option Float) :
    Splits (known.extend name none) (rest.extend name value) (whole.extend name value) := by
  constructor
  · intro n v hv
    rw [lookup_extend] at hv ⊢
    split at hv
    · cases hv
    next hn => rw [if_neg hn, h.fixed n v hv]
  · intro n hn
    rw [lookup_extend] at hn
    rw [lookup_extend, lookup_extend]
    split
    · rfl
    next hne => exact h.deferred n (by rwa [if_neg hne] at hn)

theorem extend_known (h : Splits known rest whole) (name : String) (value : Float) :
    Splits (known.extend name (some value)) rest (whole.extend name (some value)) := by
  constructor
  · intro n v hv
    rw [lookup_extend] at hv ⊢
    split at hv
    next hn => rw [if_pos hn, hv]
    next hn => rw [if_neg hn, h.fixed n v hv]
  · intro n hn
    rw [lookup_extend] at hn ⊢
    split at hn
    · cases hn
    next hne => rw [if_neg hne, h.deferred n hn]

/-- Nothing is deferred to another environment. -/
theorem whole_whole (h : Splits known rest whole) : Splits known whole whole :=
  ⟨h.fixed, fun _ _ => rfl⟩

theorem refl (env : Env) : Splits env env env :=
  ⟨fun _ _ => id, fun _ _ => rfl⟩

end Env.Splits

namespace Expr

theorem reduce_residue_unary (r : Residue) (sign : Sign) (env : Env) :
    (r.unary sign).expr.reduce env = (Expr.unary sign r.expr).reduce env := by
  unfold Residue.unary
  split
  next v hv =>
    rw [value?_eq_some_iff.mp hv, reduce_unary, reduce_lit]
    rfl
  · rfl

theorem reduce_residue_binary (l r : Residue) (op : Operator) (env : Env) :
    (l.binary op r).expr.reduce env = (Expr.binary op l.expr r.expr).reduce env := by
  unfold Residue.binary
  split
  next a b ha hb =>
    rw [value?_eq_some_iff.mp ha, value?_eq_some_iff.mp hb, reduce_binary, reduce_lit, reduce_lit]
    rfl
  · rfl

theorem mapM_reduce_lit (vs : List Float) (env : Env) :
    (vs.map Expr.lit).mapM (·.reduce env) = .ok (vs.map Residue.lit) := by
  rw [mapM_eq_ok_iff, List.forall₂_map_left_iff, List.forall₂_map_right_iff]
  exact List.forall₂_same.mpr fun v _ => reduce_lit v env

theorem reduce_residue_call {name : String} {f : Builtin} {rs : List Residue}
    (hf : Builtin.find? name = some f) (ha : f.arity = rs.length) (env : Env) :
    (Residue.call name f rs).expr.reduce env =
      (Expr.call name (rs.map Residue.expr)).reduce env := by
  unfold Residue.call
  split
  next v hv =>
    obtain ⟨vs, hvs, hcall⟩ := Option.bind_eq_some_iff.mp hv
    have hlits := mapM_value?_eq_some_iff.mp hvs
    have hlen : f.arity = (vs.map Expr.lit).length := by rw [← hlits, List.length_map, ha]
    have hagain : Residue.call name f (vs.map Residue.lit) = .lit v := by
      have hval : ((vs.map Residue.lit).map Residue.expr).mapM value? = some vs :=
        mapM_value?_eq_some_iff.mpr (by simp [Residue.lit])
      simp only [Residue.call, hval, Option.bind_some, hcall, Residue.allUnknowns_map_lit,
        Residue.lit]
    rw [hlits, reduce_call, hf]
    simp only [if_pos hlen, mapM_reduce_lit, ok_bind, hagain]
    rfl
  · rfl

/-- A body that needs nothing but its index does not look at the environment behind it. -/
theorem reduce_extend_congr {e : Expr} {env env₁ env₂ : Env} {b : Residue} {index : String}
    (hb : Reduces e env b) (hn : b.unknowns.erase index = []) (known : Option Float) :
    b.expr.reduce (env₁.extend index known) = b.expr.reduce (env₂.extend index known) := by
  refine reduce_congr fun x hx => ?_
  have hindex : x = index := Names.eq_of_mem_of_erase_eq_nil hn ((hb.free_iff x).mp hx)
  rw [Env.lookup_extend, Env.lookup_extend, if_pos hindex, if_pos hindex]

/-- Two stages of reduction give what one gives. -/
def Staged (e : Expr) : Prop :=
  ∀ known rest whole r, Env.Splits known rest whole → e.reduce known = .ok r →
    r.expr.reduce rest = e.reduce whole

/-- Where the whole environment has nothing for the names that are missing, it does not reduce any
further. -/
theorem Staged.reduce_eq {e : Expr} (h : Staged e) {known rest whole : Env} {r : Residue}
    (hs : Env.Splits known rest whole) (hr : e.reduce known = .ok r)
    (hn : ∀ x ∈ r.unknowns, whole.lookup x = none) : e.reduce whole = .ok r := by
  calc
    e.reduce whole = r.expr.reduce whole := (h _ _ _ _ hs.whole_whole hr).symm
    _ = r.expr.reduce known := reduce_congr fun x hx => by
      have hx := ((reduces hr).free_iff x).mp hx
      rw [hn x hx, (((reduces hr).mem_unknowns_iff x).mp hx).2]
    _ = e.reduce known := h _ _ _ _ (.refl known) hr
    _ = .ok r := hr

theorem Staged.reduce_eq_of_value {e : Expr} (h : Staged e) {known rest whole : Env} {r : Residue}
    {v : Float} (hs : Env.Splits known rest whole) (hr : e.reduce known = .ok r)
    (hv : r.expr.value? = some v) : e.reduce whole = .ok r := by
  refine h.reduce_eq hs hr fun x hx => ?_
  rw [(reduces hr).unknowns_eq_nil hv] at hx
  exact absurd hx List.not_mem_nil

theorem Staged.unary {e : Expr} (h : Staged e) (sign : Sign) : Staged (.unary sign e) := by
  intro known rest whole r hs hr
  rw [reduce_unary] at hr
  obtain ⟨r', hr', he⟩ := bind_eq_ok_iff.mp hr
  obtain rfl := Except.ok.inj he
  rw [reduce_residue_unary, reduce_unary, reduce_unary, h _ _ _ _ hs hr']

theorem Staged.binary {lhs rhs : Expr} (hl : Staged lhs) (hr : Staged rhs) (op : Operator) :
    Staged (.binary op lhs rhs) := by
  intro known rest whole r hs he
  rw [reduce_binary] at he
  obtain ⟨l, hl', he⟩ := bind_eq_ok_iff.mp he
  obtain ⟨r', hr', he⟩ := bind_eq_ok_iff.mp he
  obtain rfl := Except.ok.inj he
  rw [reduce_residue_binary, reduce_binary, reduce_binary, hl _ _ _ _ hs hl',
    hr _ _ _ _ hs hr']

theorem Staged.call {args : List Expr} (h : ∀ e ∈ args, Staged e) (name : String) :
    Staged (.call name args) := by
  intro known rest whole r hs hr
  rw [reduce_call] at hr
  cases hf : Builtin.find? name with
  | none => simp [hf] at hr
  | some f =>
    simp only [hf] at hr
    split at hr
    next ha =>
      obtain ⟨rs, hrs, he⟩ := bind_eq_ok_iff.mp hr
      obtain rfl := Except.ok.inj he
      have hall := mapM_eq_ok_iff.mp hrs
      have hlen := hall.length_eq
      have hargs : (rs.map Residue.expr).mapM (·.reduce rest) = args.mapM (·.reduce whole) := by
        refine (mapM_congr_forall₂ (List.forall₂_map_right_iff.mpr ?_)).symm
        refine List.forall₂_iff_zip.mpr ⟨hlen, fun {e r} hm => ?_⟩
        exact (h e (List.of_mem_zip hm).1 _ _ _ _ hs (List.forall₂_zip hall hm)).symm
      rw [reduce_residue_call hf (ha.trans hlen), reduce_call, reduce_call, hf, hargs,
        List.length_map, hlen]
    · cases hr

/-- If both ends are known and the body needs nothing but its index, then any environment that knows
as much reduces them to the same, and folds the same terms. -/
theorem Staged.reduce_quantified_eq {first last body : Expr} (hfirst : Staged first)
    (hlast : Staged last) (hbody : Staged body) {known rest whole : Env}
    (hs : Env.Splits known rest whole) {kind : Quantifier} {index : String} {f l b : Residue}
    (hf : first.reduce known = .ok f) (hl : last.reduce known = .ok l)
    (hb : body.reduce (known.extend index none) = .ok b) {x y : Float}
    (hx : f.expr.value? = some x) (hy : l.expr.value? = some y)
    (hn : b.unknowns.erase index = []) :
    (Expr.quantified kind index first last body).reduce whole =
      quantify reduce kind index f l b known := by
  have hb' : body.reduce (whole.extend index none) = .ok b := by
    refine hbody.reduce_eq (hs.extend_open index none) hb fun n hmem => ?_
    rw [Env.lookup_extend, if_pos (Names.eq_of_mem_of_erase_eq_nil hn hmem)]
  rw [reduce_quantified, hfirst.reduce_eq_of_value hs hf hx, hlast.reduce_eq_of_value hs hl hy]
  simp only [ok_bind, hb']
  exact quantify_congr reduce fun _ i => reduce_extend_congr (reduces hb) hn (some i)

theorem Staged.quantified {first last body : Expr} (hfirst : Staged first) (hlast : Staged last)
    (hbody : Staged body) (kind : Quantifier) (index : String) :
    Staged (.quantified kind index first last body) := by
  intro known rest whole r hs hr
  rw [reduce_quantified] at hr
  obtain ⟨f, hf, hr⟩ := bind_eq_ok_iff.mp hr
  obtain ⟨l, hl, hr⟩ := bind_eq_ok_iff.mp hr
  obtain ⟨b, hb, hr⟩ := bind_eq_ok_iff.mp hr
  rcases quantify_eq_ok _ hr with ⟨x, y, v, hx, hy, hn, rfl⟩ | ⟨-, rfl⟩
  · rw [hfirst.reduce_quantified_eq hlast hbody hs hf hl hb hx hy hn, hr]
    exact reduce_lit v rest
  · have hopen := hbody _ _ _ _ (hs.extend_open index none) hb
    rw [Residue.quantified, reduce_quantified, reduce_quantified, hfirst _ _ _ _ hs hf,
      hlast _ _ _ _ hs hl, hopen]
    refine bind_congr_ok fun f' _ => bind_congr_ok fun l' _ => bind_congr_ok fun b' hb' => ?_
    exact quantify_congr reduce fun hn i => reduce_extend_congr (reduces hb') hn (some i)

theorem Staged.bind {value rest : Expr} (hvalue : Staged value) (hrest : Staged rest)
    (name : String) : Staged (.bind name value rest) := by
  intro known later whole r hs hr
  rw [reduce_bind] at hr
  obtain ⟨v, hv, hr⟩ := bind_eq_ok_iff.mp hr
  cases hx : v.expr.value? with
  | some x =>
    simp only [hx] at hr
    rw [reduce_bind, hvalue.reduce_eq_of_value hs hv hx]
    simp only [ok_bind, hx]
    exact hrest _ _ _ _ (hs.extend_known name x) hr
  | none =>
    simp only [hx] at hr
    obtain ⟨r', hr', he⟩ := bind_eq_ok_iff.mp hr
    obtain rfl := Except.ok.inj he
    rw [Residue.bind, reduce_bind, reduce_bind, hvalue _ _ _ _ hs hv]
    have hopen := fun known => hrest _ _ _ _ (hs.extend_open name known) hr'
    simp only [hopen]

theorem staged (e : Expr) : Staged e := by
  induction e with
  | lit v =>
    intro known rest whole r hs hr
    obtain rfl := Except.ok.inj hr
    rfl
  | var name =>
    intro known rest whole r hs hr
    rw [reduce_var] at hr
    cases hv : known.lookup name with
    | some v =>
      simp only [hv] at hr
      obtain rfl := Except.ok.inj hr
      rw [reduce_var, hs.fixed name v hv]
      rfl
    | none =>
      simp only [hv] at hr
      obtain rfl := Except.ok.inj hr
      rw [reduce_var, reduce_var, hs.deferred name hv]
  | unary sign e ih => exact ih.unary sign
  | binary op lhs rhs ihl ihr => exact ihl.binary ihr op
  | call name args ih => exact Staged.call ih name
  | quantified kind index first last body ihf ihl ihb => exact ihf.quantified ihl ihb kind index
  | bind name value rest ihv ihr => exact ihv.bind ihr name

end Expr

namespace Bindings

/-- These bindings and those of `more` whose names mean nothing yet. -/
def supplement (b more : Bindings) : Bindings :=
  b ++ more.filter fun entry => (b.get? entry.1).isNone && (Builtin.constant? entry.1).isNone

theorem lookup_filter_fst (b : Bindings) (p : String → Bool) (name : String) :
    (b.filter fun entry => p entry.1).lookup name = if p name then b.lookup name else none := by
  induction b with
  | nil => simp
  | cons entry b ih =>
    obtain ⟨n, v⟩ := entry
    rw [List.filter_cons]
    by_cases hn : name = n
    · subst hn
      by_cases hp : p name
      · simp [hp]
      · simpa [hp] using ih
    · have hne : (name == n) = false := by simpa using hn
      rw [List.lookup_cons, hne, ← ih]
      split
      · rw [List.lookup_cons, hne]
      · rfl

theorem get?_insert (b : Bindings) (name : String) (value : Float) (n : String) :
    (b.insert name value).get? n = if n = name then some value else b.get? n := by
  rw [insert, get?, List.lookup_cons]
  by_cases hn : n = name
  · simp [hn]
  · have hne : (n == name) = false := by simpa using hn
    rw [hne, lookup_filter_fst b (· != name)]
    simp [hn, get?]

theorem get?_supplement (b more : Bindings) (name : String) :
    (b.supplement more).get? name =
      (b.get? name).or (if (Builtin.constant? name).isNone then more.get? name else none) := by
  have hmore := lookup_filter_fst more
    (fun n => (b.get? n).isNone && (Builtin.constant? n).isNone) name
  rw [get?, supplement, List.lookup_append, hmore, ← get?, ← get?]
  cases b.get? name <;> simp

theorem splits_supplement (b more : Bindings) :
    Env.Splits (.ofBindings b) (.ofBindings more) (.ofBindings (b.supplement more)) := by
  constructor
  · intro n v hv
    rw [Env.lookup_ofBindings] at hv
    rw [Env.lookup_ofBindings, get?_supplement]
    cases hb : b.get? n with
    | some w => simpa [hb] using hv
    | none =>
      rw [hb, Option.none_or] at hv
      simp [hv]
  · intro n hn
    rw [Env.lookup_ofBindings, Option.or_eq_none_iff] at hn
    simp [Env.lookup_ofBindings, get?_supplement, hn]

end Bindings

theorem Compiled.call_ofResidue (r : Residue) (b : Bindings) :
    (ofResidue r).call b = r.expr.eval b := by
  obtain ⟨e, names⟩ := r
  cases e <;> rfl

/-- A prepared text is evaluated as the text is, with the further bindings behind the first ones. -/
theorem Compiled.call_of_compileText {src : String} {b : Bindings} {c : Compiled}
    (h : compileText src b = .ok c) (more : Bindings) :
    c.call more = evalText src (b.supplement more) := by
  obtain ⟨e, he, h⟩ := bind_eq_ok_iff.mp h
  obtain ⟨r, hr, h⟩ := bind_eq_ok_iff.mp h
  obtain rfl := Except.ok.inj h
  have hstaged := e.staged _ _ _ r (b.splits_supplement more) hr
  rw [call_ofResidue, evalText, he, ok_bind, Expr.eval, Expr.eval, Expr.partialEval, hstaged]
  rfl

/-- Bindings that come later fill in what the first ones left open, as if all had been given at
once: for reduction, for evaluation and for prepared expressions. -/
theorem staged_evaluation (b more : Bindings) :
    (∀ (e : Expr) (r : Residue), e.partialEval b = .ok r →
      r.expr.partialEval more = e.partialEval (b.supplement more) ∧
      r.expr.eval more = e.eval (b.supplement more)) ∧
    ∀ (src : String) (c : Compiled), compileText src b = .ok c →
      c.call more = evalText src (b.supplement more) := by
  have hpartial : ∀ (e : Expr) (r : Residue), e.partialEval b = .ok r →
      r.expr.partialEval more = e.partialEval (b.supplement more) :=
    fun e r hr => e.staged _ _ _ r (b.splits_supplement more) hr
  have heval : ∀ (e : Expr) (r : Residue), e.partialEval b = .ok r →
      r.expr.eval more = e.eval (b.supplement more) := by
    intro e r hr
    rw [Expr.eval, Expr.eval, hpartial e r hr]
  exact ⟨fun e r hr => ⟨hpartial e r hr, heval e r hr⟩,
    fun src c hc => Compiled.call_of_compileText hc more⟩

theorem staged_evaluation_shadowed :
    let e : Expr := .bind "y" (.binary .multiply (.var "n") (.var "x"))
      (.quantified .sum "x" (.lit 1.0) (.var "n") (.binary .multiply (.var "x") (.var "y")))
    let src := "y = n x; sum(x = 1, n, x y)"
    let b : Bindings := [("n", 2.0)]
    let more : Bindings := [("n", 7.0), ("x", 3.0)]
    (∃ r, e.partialEval b = .ok r ∧ r.unknowns = ["x"] ∧
      r.expr.eval more = e.eval (b.supplement more) ∧
      e.eval (b.supplement more) = .ok 18.0) ∧
    ∃ c, compileText src b = .ok c ∧ c.call more = evalText src (b.supplement more) ∧
      evalText src (b.supplement more) = .ok 18.0 := by
  intro e src b more
  have hr : ∃ r, e.partialEval b = .ok r ∧ r.unknowns = ["x"] := ⟨_, rfl, by decide +kernel⟩
  have hc : (compileText src b).toBool = true := by decide +kernel
  obtain ⟨r, hr, hn⟩ := hr
  cases hs : compileText src b with
  | error err => simp [hs, Except.toBool] at hc
  | ok c =>
    exact ⟨⟨r, hr, hn, ((staged_evaluation b more).1 e r hr).2, by decide +kernel⟩, c, rfl,
      (staged_evaluation b more).2 src c hs, by decide +kernel⟩

end DifferentialAnalyzer
