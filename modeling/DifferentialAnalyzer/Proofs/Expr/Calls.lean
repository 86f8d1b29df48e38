import DifferentialAnalyzer.Proofs.Expr.Meaning

/-! Names and calls that were checked once. What is left of an expression holds only calls that were
found to be in order, and when its names get values nothing but a range can fail. -/

namespace DifferentialAnalyzer

/-- The error of a sum or product over a range that is none. Only values can bring it about. -/
def ExprError.IsRange : ExprError → Prop
  | .nonIntegerRange _ => True
  | .rangeTooLarge _ _ => True
  | _ => False

/-- The error of a call that no values could set right. -/
def ExprError.IsCall : ExprError → Prop
  | .unknownFunction _ => True
  | .arityMismatch _ _ _ => True
  | _ => False

namespace Expr

mutual

/-- Every function that is called exists and has the right number of arguments. -/
def WellCalled : Expr → Prop
  | .lit _ => True
  | .var _ => True
  | .unary _ operand => operand.WellCalled
  | .binary _ lhs rhs => lhs.WellCalled ∧ rhs.WellCalled
  | .call name args =>
    (∃ f, Builtin.find? name = some f ∧ f.arity = args.length) ∧ AllWellCalled args
  | .quantified _ _ first last body => first.WellCalled ∧ last.WellCalled ∧ body.WellCalled
  | .bind _ value rest => value.WellCalled ∧ rest.WellCalled

def AllWellCalled : List Expr → Prop
  | [] => True
  | e :: es => e.WellCalled ∧ AllWellCalled es

end

theorem allWellCalled_iff {es : List Expr} : AllWellCalled es ↔ ∀ e ∈ es, e.WellCalled := by
  induction es with
  | nil => simp [AllWellCalled]
  | cons e es ih => rw [AllWellCalled, ih, List.forall_mem_cons]

/-- Reduction looks at every call, also in what it cannot evaluate. -/
theorem Reduces.wellCalled {e : Expr} {env : Env} {r : Residue} (h : Reduces e env r) :
    r.expr.WellCalled := by
  induction h with
  | lit => trivial
  | known hv => trivial
  | unknown hv => trivial
  | unary hr ih =>
    unfold Residue.unary
    split
    · trivial
    · exact ih
  | binary hl hr ihl ihr =>
    unfold Residue.binary
    split
    · trivial
    · exact ⟨ihl, ihr⟩
  | @call name f args env rs hf ha hlen hrs ih =>
    have hall := forall_mem_of_forall₂ (List.forall₂_iff_zip.mpr ⟨hlen, fun hm => ih _ _ hm⟩)
    unfold Residue.call
    split
    · trivial
    · refine ⟨⟨f, hf, by rw [ha, hlen, List.length_map]⟩, allWellCalled_iff.mpr ?_⟩
      exact List.forall_mem_map.mpr hall
  | folded => trivial
  | left hf hl hb hopen ihf ihl ihb => exact ⟨ihf, ihl, ihb⟩
  | bound hv hx hr ihv ihr => exact ihr
  | held hv hx hr ihv ihr => exact ⟨ihv, ihr⟩

theorem Reduces.exists_value {e : Expr} {env : Env} {r : Residue} (h : Reduces e env r)
    (hr : r.unknowns = []) : ∃ v, r.expr.value? = some v := by
  have hunion : ∀ a b : Names, a.union b = [] → a = [] ∧ b = [] := by
    intro a b hab
    simp only [List.eq_nil_iff_forall_not_mem, Names.mem_union_iff, not_or] at hab ⊢
    exact forall_and.mp hab
  induction h with
  | lit => exact ⟨_, rfl⟩
  | known hv => exact ⟨_, rfl⟩
  | unknown hv => cases hr
  | @unary sign e env r hr' ih =>
    have hn : r.unknowns = [] := by
      unfold Residue.unary at hr
      split at hr <;> exact hr
    obtain ⟨v, hv⟩ := ih hn
    simp only [Residue.unary, hv]
    exact ⟨_, rfl⟩
  | @binary op lhs rhs env l r hl hr' ihl ihr =>
    have hn : l.unknowns.union r.unknowns = [] := by
      unfold Residue.binary at hr
      split at hr <;> exact hr
    obtain ⟨a, ha⟩ := ihl (hunion _ _ hn).1
    obtain ⟨b, hb⟩ := ihr (hunion _ _ hn).2
    simp only [Residue.binary, ha, hb]
    exact ⟨_, rfl⟩
  | @call name f args env rs hf ha hlen hrs ih =>
    have hn : ∀ r ∈ rs, r.unknowns = [] := by
      have hall : Residue.allUnknowns rs = [] := by
        unfold Residue.call at hr
        split at hr <;> exact hr
      intro r hr'
      refine List.eq_nil_iff_forall_not_mem.mpr fun x hx => ?_
      have hmem := Residue.mem_allUnknowns_iff.mpr ⟨r, hr', hx⟩
      rw [hall] at hmem
      cases hmem
    have hvalues : ∀ r ∈ rs, ∃ v, r.expr.value? = some v := by
      refine forall_mem_of_forall₂ (List.forall₂_iff_zip.mpr ⟨hlen, fun hm => ?_⟩)
      exact ih _ _ hm (hn _ (List.of_mem_zip hm).2)
    have hargs : (rs.map Residue.expr).mapM value? =
        some (rs.map fun r => r.expr.value?.getD 0.0) := by
      rw [mapM_value?_eq_some_iff, List.map_map]
      refine List.map_congr_left fun r hr => ?_
      obtain ⟨v, hv⟩ := hvalues r hr
      simp [value?_eq_some_iff.mp hv, value?]
    have hcall : (f.call? (rs.map fun r => r.expr.value?.getD 0.0)).isSome = true :=
      Builtin.call?_isSome_iff.mpr (by rw [ha, hlen, List.length_map])
    obtain ⟨v, hv⟩ := Option.isSome_iff_exists.mp hcall
    simp only [Residue.call, hargs, Option.bind_some, hv]
    exact ⟨v, rfl⟩
  | folded => exact ⟨_, rfl⟩
  | left hf hl hb hopen ihf ihl ihb =>
    obtain ⟨hends, hbody⟩ := hunion _ _ hr
    obtain ⟨x, hx⟩ := ihf (hunion _ _ hends).1
    obtain ⟨y, hy⟩ := ihl (hunion _ _ hends).2
    simp [hx, hy, hbody] at hopen
  | bound hv hx hr' ihv ihr => exact ihr hr
  | held hv hx hr' ihv ihr =>
    obtain ⟨x, hx'⟩ := ihv (hunion _ _ hr).1
    simp [hx] at hx'

section Fold

variable {kind : Quantifier} {term : Float → Except ExprError Float} {err : ExprError}

theorem isRange_of_termCount {first last : Float} (h : termCount kind first last = .error err) :
    err.IsRange := by
  unfold termCount at h
  split at h
  · obtain rfl := Except.error.inj h
    trivial
  · dsimp only at h
    split at h
    · obtain rfl := Except.error.inj h
      trivial
    · cases h

theorem exists_of_foldTerms_eq_error {step : Float} {count : Nat} {i acc : Float}
    (h : foldTerms kind term step count i acc = .error err) : ∃ j, term j = .error err := by
  induction count generalizing i acc with
  | zero => cases h
  | succ count ih =>
    rw [foldTerms] at h
    cases hi : term i with
    | error e =>
      rw [hi] at h
      exact ⟨i, hi.trans h⟩
    | ok v =>
      rw [hi] at h
      exact ih h

theorem fold_eq_error {first last : Float} (h : fold kind term first last = .error err) :
    err.IsRange ∨ ∃ i, term i = .error err := by
  rcases bind_eq_error_iff.mp h with h | ⟨count, -, h⟩
  · exact .inl (isRange_of_termCount h)
  · exact .inr (exists_of_foldTerms_eq_error h)

end Fold

theorem finish_eq_error {r : Residue} {err : ExprError} (h : r.finish = .error err) :
    r.expr.value? = none := by
  unfold Residue.finish at h
  split at h
  · cases h
  next hne =>
    exact Option.eq_none_iff_forall_ne_some.mpr fun v hv => hne v (value?_eq_some_iff.mp hv)

/-- A term of a fold has a value or fails with the body: all that the body misses is its index. -/
theorem reduce_term_eq_error {e : Expr} {env : Env} {index : String} {b : Residue}
    (hb : Reduces e (env.extend index none) b) (hn : b.unknowns.erase index = []) {i : Float}
    {err : ExprError}
    (h : (do (← b.expr.reduce (env.extend index (some i))).finish) = Except.error err) :
    b.expr.reduce (env.extend index (some i)) = .error err := by
  rcases bind_eq_error_iff.mp h with h | ⟨r, hr, h⟩
  · exact h
  · have hnone : r.unknowns = [] := by
      refine List.eq_nil_iff_forall_not_mem.mpr fun z hz => ?_
      obtain ⟨hfree, hlookup⟩ := ((reduces hr).mem_unknowns_iff z).mp hz
      obtain rfl := Names.eq_of_mem_of_erase_eq_nil hn ((hb.free_iff z).mp hfree)
      simp [Env.lookup_extend] at hlookup
    obtain ⟨v, hv⟩ := (reduces hr).exists_value hnone
    rw [finish_eq_error h] at hv
    cases hv

/-- Reduction fails for a range, or for a call that is not in order. -/
theorem reduce_eq_error {e : Expr} {env : Env} {err : ExprError} (h : e.reduce env = .error err) :
    err.IsRange ∨ err.IsCall ∧ ¬ e.WellCalled := by
  induction e using induction_on_depth generalizing env err with
  | lit v => cases h
  | var name =>
    rw [reduce_var] at h
    split at h <;> cases h
  | unary sign e ih =>
    rw [reduce_unary, bind_eq_error_iff] at h
    rcases h with h | ⟨r, -, h⟩
    · exact ih h
    · cases h
  | binary op lhs rhs ihl ihr =>
    rw [reduce_binary, bind_eq_error_iff] at h
    rcases h with h | ⟨l, -, h⟩
    · exact (ihl h).imp_right fun hc => ⟨hc.1, fun hw => hc.2 hw.1⟩
    · rcases bind_eq_error_iff.mp h with h | ⟨r, -, h⟩
      · exact (ihr h).imp_right fun hc => ⟨hc.1, fun hw => hc.2 hw.2⟩
      · cases h
  | call name args ih =>
    rw [reduce_call] at h
    cases hf : Builtin.find? name with
    | none =>
      rw [hf] at h
      obtain rfl := Except.error.inj h
      refine .inr ⟨trivial, fun hw => ?_⟩
      obtain ⟨⟨f, hf', -⟩, -⟩ := hw
      simp [hf] at hf'
    | some f =>
      simp only [hf] at h
      split at h
      next ha =>
        rcases bind_eq_error_iff.mp h with h | ⟨rs, -, h⟩
        · obtain ⟨e, he, h⟩ := exists_of_mapM_eq_error h
          exact (ih e he h).imp_right fun hc =>
            ⟨hc.1, fun hw => hc.2 (allWellCalled_iff.mp hw.2 e he)⟩
        · cases h
      next ha =>
        obtain rfl := Except.error.inj h
        refine .inr ⟨trivial, fun hw => ?_⟩
        obtain ⟨⟨g, hg, ha'⟩, -⟩ := hw
        rw [hf] at hg
        exact ha (Option.some.inj hg ▸ ha')
  | quantified kind index first last body ihf ihl ihb =>
    rw [reduce_quantified, bind_eq_error_iff] at h
    rcases h with h | ⟨f, -, h⟩
    · exact (ihf h).imp_right fun hc => ⟨hc.1, fun hw => hc.2 hw.1⟩
    rcases bind_eq_error_iff.mp h with h | ⟨l, -, h⟩
    · exact (ihl h).imp_right fun hc => ⟨hc.1, fun hw => hc.2 hw.2.1⟩
    rcases bind_eq_error_iff.mp h with h | ⟨b, hb, h⟩
    · exact (ihb body (Nat.le_refl _) h).imp_right fun hc => ⟨hc.1, fun hw => hc.2 hw.2.2⟩
    obtain ⟨x, y, hx, hy, hn⟩ := quantify_eq_error reduce h
    simp only [quantify, hx, hy, hn] at h
    rcases bind_eq_error_iff.mp h with h | ⟨v, -, h⟩
    · rcases fold_eq_error h with h | ⟨i, h⟩
      · exact .inl h
      · -- The calls of what is left of the body have been looked at.
        have hleft := reduces hb
        have hterm := reduce_term_eq_error hleft hn h
        exact (ihb b.expr hleft.quantifierDepth_le hterm).imp_right fun hc =>
          absurd hleft.wellCalled hc.2
    · cases h
  | bind name value rest ihv ihr =>
    rw [reduce_bind, bind_eq_error_iff] at h
    rcases h with h | ⟨v, -, h⟩
    · exact (ihv h).imp_right fun hc => ⟨hc.1, fun hw => hc.2 hw.1⟩
    · cases hx : v.expr.value? with
      | some x =>
        simp only [hx] at h
        exact (ihr h).imp_right fun hc => ⟨hc.1, fun hw => hc.2 hw.2⟩
      | none =>
        simp only [hx] at h
        rcases bind_eq_error_iff.mp h with h | ⟨r, -, h⟩
        · exact (ihr h).imp_right fun hc => ⟨hc.1, fun hw => hc.2 hw.2⟩
        · cases h

/-- Where moreover no name is missing, only a range can make evaluation fail. -/
theorem isRange_of_value {e : Expr} (hc : e.WellCalled) {env : Env}
    (hn : ∀ x, e.Free x → env.lookup x ≠ none) {err : ExprError} (h : e.value env = .error err) :
    err.IsRange := by
  rcases bind_eq_error_iff.mp h with h | ⟨r, hr, h⟩
  · exact (reduce_eq_error h).resolve_right fun hcall => hcall.2 hc
  · have hnone : r.unknowns = [] := by
      refine List.eq_nil_iff_forall_not_mem.mpr fun x hx => ?_
      obtain ⟨hfree, hlookup⟩ := ((reduces hr).mem_unknowns_iff x).mp hx
      exact hn x hfree hlookup
    obtain ⟨v, hv⟩ := (reduces hr).exists_value hnone
    rw [finish_eq_error h] at hv
    cases hv

end Expr

namespace Compiled

theorem mem_free_of_free {e : Expr} {env : Env} {r : Residue} (h : e.Reduces env r) {x : String}
    (hx : r.expr.Free x) : x ∈ (ofResidue r).free := by
  have hmem := (h.free_iff x).mp hx
  unfold ofResidue
  split
  next v hv =>
    rw [hv] at hx
    cases hx
  · exact hmem

/-- What was prepared fails in a call only for a range, if the call supplies its names. -/
theorem isRange_of_call {source : String} {scope b : Bindings} {c : Compiled}
    (hc : compileText source scope = .ok c) (hn : ∀ x ∈ c.free, b.get? x ≠ none)
    {err : ExprError} (h : c.call b = .error err) : err.IsRange := by
  obtain ⟨e, -, hc⟩ := bind_eq_ok_iff.mp hc
  obtain ⟨r, hr, hc⟩ := bind_eq_ok_iff.mp hc
  obtain rfl := Except.ok.inj hc
  have hleft := Expr.reduces hr
  rw [call_ofResidue] at h
  refine Expr.isRange_of_value hleft.wellCalled (fun x hx hlookup => ?_) h
  rw [Env.lookup_ofBindings, Option.or_eq_none_iff] at hlookup
  exact hn x (mem_free_of_free hleft hx) hlookup.1

end Compiled

end DifferentialAnalyzer
