import DifferentialAnalyzer.Proofs.Expr.Reduction

/-! The names that an expression needs. Reduction reports exactly those that the environment leaves
open, what is left needs no others, and no other entry of the environment matters. -/

namespace DifferentialAnalyzer

namespace Names

theorem mem_insert_iff {x name : String} {names : Names} :
    x ∈ insert name names ↔ x = name ∨ x ∈ names := by
  induction names with
  | nil => simp [insert]
  | cons n ns ih =>
    unfold insert
    split
    next he => simp [he]
    · split
      · simp
      · rw [List.mem_cons, ih, List.mem_cons]
        tauto

theorem mem_union_iff {x : String} {a b : Names} : x ∈ a.union b ↔ x ∈ a ∨ x ∈ b := by
  unfold union
  induction b generalizing a with
  | nil => simp
  | cons n ns ih =>
    rw [List.foldl_cons, ih, mem_insert_iff, List.mem_cons]
    tauto

theorem mem_erase_iff {x name : String} {a : Names} : x ∈ a.erase name ↔ x ≠ name ∧ x ∈ a := by
  simp [erase, and_comm]

theorem eq_of_mem_of_erase_eq_nil {x name : String} {a : Names} (h : a.erase name = [])
    (hx : x ∈ a) : x = name := by
  by_contra hne
  have hmem := mem_erase_iff.mpr ⟨hne, hx⟩
  rw [h] at hmem
  exact List.not_mem_nil hmem

end Names

theorem Env.lookup_ofBindings (b : Bindings) (name : String) :
    (ofBindings b).lookup name = (b.get? name).or (Builtin.constant? name) := by
  simp only [lookup, ofBindings, List.lookup_nil]
  cases b.get? name <;> rfl

theorem Env.lookup_extend (env : Env) (name : String) (known : Option Float) (x : String) :
    (env.extend name known).lookup x = if x = name then known else env.lookup x := by
  by_cases hx : x = name
  · simp [lookup, extend, hx]
  · have hne : (x == name) = false := by simpa using hx
    simp only [lookup, extend, List.lookup_cons, hne, if_neg hx]

theorem Residue.mem_allUnknowns_iff {x : String} {rs : List Residue} :
    x ∈ allUnknowns rs ↔ ∃ r ∈ rs, x ∈ r.unknowns := by
  induction rs with
  | nil => simp [allUnknowns]
  | cons r rs ih =>
    rw [allUnknowns, List.foldr_cons, Names.mem_union_iff, ← allUnknowns, ih]
    simp

namespace Expr

mutual

/-- The name occurs, and nothing in the expression binds it there. -/
def Free : Expr → String → Prop
  | .lit _, _ => False
  | .var name, x => x = name
  | .unary _ operand, x => operand.Free x
  | .binary _ lhs rhs, x => lhs.Free x ∨ rhs.Free x
  | .call _ args, x => FreeAny args x
  | .quantified _ index first last body, x =>
    first.Free x ∨ last.Free x ∨ x ≠ index ∧ body.Free x
  | .bind name value rest, x => value.Free x ∨ x ≠ name ∧ rest.Free x

def FreeAny : List Expr → String → Prop
  | [], _ => False
  | e :: es, x => e.Free x ∨ FreeAny es x

end

theorem freeAny_iff {es : List Expr} {x : String} : FreeAny es x ↔ ∃ e ∈ es, e.Free x := by
  induction es with
  | nil => simp [FreeAny]
  | cons e es ih => simp [FreeAny, ih]

theorem value?_eq_some_iff {e : Expr} {v : Float} : e.value? = some v ↔ e = .lit v := by
  cases e <;> simp [value?]

theorem mapM_value?_eq_some_iff {es : List Expr} {vs : List Float} :
    es.mapM value? = some vs ↔ es = vs.map .lit := by
  simp only [mapM_eq_some_iff, value?_eq_some_iff, List.forall₂_eq_eq_eq,
    ← List.forall₂_map_right_iff]

/-- What is left needs exactly the names that are reported. -/
theorem Reduces.free_iff {e : Expr} {env : Env} {r : Residue} (h : Reduces e env r) (x : String) :
    r.expr.Free x ↔ x ∈ r.unknowns := by
  induction h with
  | lit => simp [Residue.lit, Free]
  | known hv => simp [Residue.lit, Free]
  | unknown hv => simp [Free]
  | unary hr ih =>
    unfold Residue.unary
    split
    next v hv =>
      rw [value?_eq_some_iff.mp hv] at ih
      simpa only [Free] using ih
    · exact ih
  | binary hl hr ihl ihr =>
    unfold Residue.binary
    split
    next a b ha hb =>
      rw [value?_eq_some_iff.mp ha] at ihl
      rw [value?_eq_some_iff.mp hb] at ihr
      simp only [Free, Names.mem_union_iff, ← ihl, ← ihr, or_self]
    · simp only [Free, Names.mem_union_iff, ihl, ihr]
  | @call name f args env rs hf ha hlen hrs ih =>
    have hiff := forall_mem_of_forall₂ (List.forall₂_iff_zip.mpr ⟨hlen, fun hm => ih _ _ hm⟩)
    have hany : x ∈ Residue.allUnknowns rs ↔ ∃ r ∈ rs, r.expr.Free x := by
      rw [Residue.mem_allUnknowns_iff]
      exact exists_congr fun r => and_congr_right fun hr => (hiff r hr).symm
    unfold Residue.call
    split
    next v hv =>
      obtain ⟨vs, hvs, -⟩ := Option.bind_eq_some_iff.mp hv
      have hlit : ∀ r ∈ rs, ¬ r.expr.Free x := by
        intro r hr
        have hm := List.mem_map_of_mem (f := Residue.expr) hr
        rw [mapM_value?_eq_some_iff.mp hvs] at hm
        obtain ⟨w, -, hw⟩ := List.mem_map.mp hm
        simp [← hw, Free]
      rw [hany]
      simpa [Free] using hlit
    · simp only [Free, freeAny_iff, hany, List.mem_map, exists_exists_and_eq_and]
  | folded => simp [Residue.lit, Free]
  | left hf hl hb hopen ihf ihl ihb =>
    simp only [Residue.quantified, Free, Names.mem_union_iff, Names.mem_erase_iff, ihf, ihl, ihb,
      or_assoc]
  | bound hv hx hr ihv ihr => exact ihr
  | held hv hx hr ihv ihr =>
    simp only [Residue.bind, Free, Names.mem_union_iff, Names.mem_erase_iff, ihv, ihr]

theorem Reduces.unknowns_eq_nil {e : Expr} {env : Env} {r : Residue} (h : Reduces e env r)
    {v : Float} (hv : r.expr.value? = some v) : r.unknowns = [] := by
  apply List.eq_nil_iff_forall_not_mem.mpr
  intro x hx
  have hfree := (h.free_iff x).mpr hx
  rw [value?_eq_some_iff.mp hv] at hfree
  exact hfree

theorem mem_erase_unknowns_iff {e : Expr} {env : Env} {name x : String} {known : Option Float}
    {names : Names}
    (h : x ∈ names ↔ e.Free x ∧ (env.extend name known).lookup x = none) :
    x ∈ names.erase name ↔ (x ≠ name ∧ e.Free x) ∧ env.lookup x = none := by
  rw [Names.mem_erase_iff, h, and_assoc]
  refine and_congr_right fun hne => ?_
  rw [Env.lookup_extend, if_neg hne]

/-- The names that are reported are those that the expression needs and the environment leaves
open. -/
theorem Reduces.mem_unknowns_iff {e : Expr} {env : Env} {r : Residue} (h : Reduces e env r)
    (x : String) : x ∈ r.unknowns ↔ e.Free x ∧ env.lookup x = none := by
  induction h with
  | lit => simp [Residue.lit, Free]
  | @known name env v hv =>
    have hne : x = name → env.lookup x ≠ none := fun hx => by simp [hx, hv]
    simpa [Residue.lit, Free] using hne
  | @unknown name env hv =>
    rw [List.mem_singleton, Free]
    exact ⟨fun hx => ⟨hx, hx ▸ hv⟩, And.left⟩
  | unary hr ih =>
    unfold Residue.unary
    split <;> exact ih
  | binary hl hr ihl ihr =>
    have hu := (or_congr ihl ihr).trans or_and_right.symm
    rw [← Names.mem_union_iff] at hu
    unfold Residue.binary
    split <;> exact hu
  | @call name f args env rs hf ha hlen hrs ih =>
    have hany := exists_mem_iff_of_forall₂ (List.forall₂_iff_zip.mpr
      ⟨hlen, fun hm => (ih _ _ hm).symm⟩)
    have hu : x ∈ Residue.allUnknowns rs ↔ FreeAny args x ∧ env.lookup x = none := by
      rw [Residue.mem_allUnknowns_iff, ← hany, freeAny_iff]
      simp only [← and_assoc, exists_and_right]
    unfold Residue.call
    split <;> exact hu
  | folded hf hl hb hx hy hn ihf ihl ihb =>
    have hbody := mem_erase_unknowns_iff ihb
    rw [hf.unknowns_eq_nil hx] at ihf
    rw [hl.unknowns_eq_nil hy] at ihl
    rw [hn] at hbody
    rw [Free, or_and_right, or_and_right, ← ihf, ← ihl, ← hbody]
    simp [Residue.lit]
  | left hf hl hb hopen ihf ihl ihb =>
    rw [Residue.quantified, Names.mem_union_iff, Names.mem_union_iff, or_assoc, Free,
      or_and_right, or_and_right, ihf, ihl, mem_erase_unknowns_iff ihb]
  | @bound name value rest env v r y hv hy hr ihv ihr =>
    rw [hv.unknowns_eq_nil hy] at ihv
    rw [Free, or_and_right, ← ihv, ihr, Env.lookup_extend]
    by_cases hx : x = name <;> simp [hx]
  | held hv hx hr ihv ihr =>
    rw [Residue.bind, Names.mem_union_iff, Free, or_and_right, ihv, mem_erase_unknowns_iff ihr]

/-- Environments that agree on the names of an expression reduce it alike. -/
theorem reduce_congr {e : Expr} {env env' : Env}
    (h : ∀ x, e.Free x → env.lookup x = env'.lookup x) : e.reduce env = e.reduce env' := by
  induction e using induction_on_depth generalizing env env' with
  | lit v => rfl
  | var name => rw [reduce_var, reduce_var, h name rfl]
  | unary sign e ih => rw [reduce_unary, reduce_unary, ih h]
  | binary op lhs rhs ihl ihr =>
    rw [reduce_binary, reduce_binary, ihl fun x hx => h x (.inl hx),
      ihr fun x hx => h x (.inr hx)]
  | call name args ih =>
    have hargs : args.mapM (·.reduce env) = args.mapM (·.reduce env') :=
      mapM_congr_mem fun e hm => ih e hm fun x hx => h x (freeAny_iff.mpr ⟨e, hm, hx⟩)
    rw [reduce_call, reduce_call, hargs]
  | quantified kind index first last body ihf ihl ihb =>
    have hbody : ∀ x known, (x ≠ index → body.Free x) →
        (env.extend index known).lookup x = (env'.extend index known).lookup x := by
      intro x known hx
      rw [Env.lookup_extend, Env.lookup_extend]
      split
      · rfl
      next hne => exact h x (.inr (.inr ⟨hne, hx hne⟩))
    rw [reduce_quantified, reduce_quantified, ihf fun x hx => h x (.inl hx),
      ihl fun x hx => h x (.inr (.inl hx)),
      ihb body (Nat.le_refl _) fun x hx => hbody x none fun _ => hx]
    refine bind_congr_ok fun f _ => bind_congr_ok fun l _ => bind_congr_ok fun b hb => ?_
    refine quantify_congr _ fun _ i => ihb b.expr (reduces hb).quantifierDepth_le fun x hx => ?_
    exact hbody x _ fun _ => (((reduces hb).mem_unknowns_iff x).mp
      (((reduces hb).free_iff x).mp hx)).1
  | bind name value rest ihv ihr =>
    have hrest : ∀ known, rest.reduce (env.extend name known) =
        rest.reduce (env'.extend name known) := by
      refine fun known => ihr fun x hx => ?_
      rw [Env.lookup_extend, Env.lookup_extend]
      split
      · rfl
      next hne => exact h x (.inr ⟨hne, hx⟩)
    simp only [reduce_bind, ihv fun x hx => h x (.inl hx), hrest]

theorem eval_congr {b b' : Bindings} (h : ∀ name, b.get? name = b'.get? name) (e : Expr) :
    e.eval b = e.eval b' := by
  have hreduce : e.reduce (.ofBindings b) = e.reduce (.ofBindings b') :=
    reduce_congr fun name _ => by rw [Env.lookup_ofBindings, Env.lookup_ofBindings, h]
  rw [eval, partialEval, hreduce]
  rfl

end Expr

end DifferentialAnalyzer
