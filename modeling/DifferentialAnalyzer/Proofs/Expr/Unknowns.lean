import DifferentialAnalyzer.Proofs.Expr.Calls

/-! The names that reduction reports, as a list: in ascending order, each once, and no others than
the names that the expression needs and nobody has bound. A number needs none, and whoever needs
none is a number, so that a missing name is never reported without its name. -/

namespace DifferentialAnalyzer

namespace Names

/-- The names with a property, in ascending order. -/
def Lists (names : Names) (P : String → Prop) : Prop :=
  names.Pairwise (· < ·) ∧ ∀ x, x ∈ names ↔ P x

theorem Lists.congr {names : Names} {P Q : String → Prop} (h : names.Lists P)
    (hpq : ∀ x, P x ↔ Q x) : names.Lists Q :=
  ⟨h.1, fun x => (h.2 x).trans (hpq x)⟩

theorem pairwise_insert {name : String} {names : Names} (h : names.Pairwise (· < ·)) :
    (insert name names).Pairwise (· < ·) := by
  induction names with
  | nil => exact List.pairwise_singleton _ _
  | cons n ns ih =>
    obtain ⟨hn, hns⟩ := List.pairwise_cons.mp h
    unfold insert
    split
    · exact h
    next hne =>
      split
      next hlt =>
        refine List.pairwise_cons.mpr ⟨?_, h⟩
        exact List.forall_mem_cons.mpr ⟨hlt, fun x hx => lt_trans hlt (hn x hx)⟩
      next hge =>
        refine List.pairwise_cons.mpr ⟨fun x hx => ?_, ih hns⟩
        rcases mem_insert_iff.mp hx with rfl | hx
        · exact lt_of_le_of_ne (not_lt.mp hge) (Ne.symm hne)
        · exact hn x hx

theorem pairwise_union {a : Names} (h : a.Pairwise (· < ·)) (b : Names) :
    (a.union b).Pairwise (· < ·) := by
  unfold union
  induction b generalizing a with
  | nil => exact h
  | cons n ns ih => exact ih (pairwise_insert h)

end Names

theorem Residue.pairwise_allUnknowns {rs : List Residue}
    (h : ∀ r ∈ rs, r.unknowns.Pairwise (· < ·)) : (allUnknowns rs).Pairwise (· < ·) := by
  cases rs with
  | nil => exact .nil
  | cons r rs => exact Names.pairwise_union (h r List.mem_cons_self) _

namespace Expr

/-- The name is free, not bound and no constant. -/
def Unbound (e : Expr) (b : Bindings) (x : String) : Prop :=
  e.Free x ∧ b.get? x = none ∧ Builtin.constant? x = none

theorem unbound_iff {e : Expr} {b : Bindings} {x : String} :
    e.Unbound b x ↔ e.Free x ∧ (Env.ofBindings b).lookup x = none := by
  rw [Env.lookup_ofBindings, Option.or_eq_none_iff]
  rfl

theorem Reduces.pairwise_unknowns {e : Expr} {env : Env} {r : Residue} (h : Reduces e env r) :
    r.unknowns.Pairwise (· < ·) := by
  induction h with
  | lit => exact .nil
  | known hv => exact .nil
  | unknown hv => exact List.pairwise_singleton _ _
  | unary hr ih =>
    unfold Residue.unary
    split <;> exact ih
  | binary hl hr ihl ihr =>
    unfold Residue.binary
    split <;> exact Names.pairwise_union ihl _
  | @call name f args env rs hf ha hlen hrs ih =>
    have hall := forall_mem_of_forall₂ (List.forall₂_iff_zip.mpr ⟨hlen, fun hm => ih _ _ hm⟩)
    unfold Residue.call
    split <;> exact Residue.pairwise_allUnknowns hall
  | folded => exact .nil
  | left hf hl hb hopen ihf ihl ihb => exact Names.pairwise_union (Names.pairwise_union ihf _) _
  | bound hv hx hr ihv ihr => exact ihr
  | held hv hx hr ihv ihr => exact Names.pairwise_union ihv _

/-- What is left is a number exactly if no name is missing. -/
theorem Reduces.exists_lit_iff {e : Expr} {env : Env} {r : Residue} (h : Reduces e env r) :
    (∃ v, r.expr = .lit v) ↔ r.unknowns = [] := by
  simp only [← value?_eq_some_iff]
  exact ⟨fun ⟨_, hv⟩ => h.unknowns_eq_nil hv, h.exists_value⟩

theorem Reduces.lists_unknowns {e : Expr} {b : Bindings} {r : Residue}
    (h : Reduces e (.ofBindings b) r) : r.unknowns.Lists (e.Unbound b) :=
  ⟨h.pairwise_unknowns, fun x => (h.mem_unknowns_iff x).trans unbound_iff.symm⟩

/-- Reduction itself never complains of a missing name. -/
theorem reduce_ne_undefinedVariables (e : Expr) (env : Env) (names : List String) :
    e.reduce env ≠ .error (.undefinedVariables names) := by
  intro h
  rcases reduce_eq_error h with hr | ⟨hc, -⟩
  · exact hr
  · exact hc

theorem finish_eq_undefinedVariables {r : Residue} {names : List String}
    (h : r.finish = .error (.undefinedVariables names)) : r.unknowns = names := by
  unfold Residue.finish at h
  split at h
  · cases h
  · exact ExprError.undefinedVariables.inj (Except.error.inj h)

theorem eval_eq_undefinedVariables {e : Expr} {b : Bindings} {names : List String}
    (h : e.eval b = .error (.undefinedVariables names)) :
    names ≠ [] ∧ Names.Lists names (e.Unbound b) := by
  rcases bind_eq_error_iff.mp h with h | ⟨r, hr, h⟩
  · exact absurd h (reduce_ne_undefinedVariables e _ names)
  · have hleft := reduces hr
    rw [← finish_eq_undefinedVariables h]
    refine ⟨fun hnil => ?_, hleft.lists_unknowns⟩
    obtain ⟨v, hv⟩ := hleft.exists_value hnil
    rw [finish_eq_error h] at hv
    cases hv

theorem not_unbound_of_eval {e : Expr} {b : Bindings} {v : Float} (h : e.eval b = .ok v)
    (x : String) : ¬ e.Unbound b x := by
  obtain ⟨r, hr, h⟩ := bind_eq_ok_iff.mp h
  have hleft := reduces hr
  rw [← hleft.lists_unknowns.2 x, hleft.unknowns_eq_nil (finish_eq_ok_iff.mp h)]
  exact List.not_mem_nil

end Expr

namespace Compiled

theorem free_ofResidue {e : Expr} {env : Env} {r : Residue} (h : e.Reduces env r) :
    (ofResidue r).free = r.unknowns := by
  unfold ofResidue
  split
  next v hv => exact (h.unknowns_eq_nil (Expr.value?_eq_some_iff.mpr hv)).symm
  · rfl

/-- Of what was left under some bindings a call misses the names that it does not supply. -/
theorem unbound_residue_iff {e : Expr} {b : Bindings} {r : Residue}
    (h : e.Reduces (.ofBindings b) r) (more : Bindings) (x : String) :
    r.expr.Unbound more x ↔ x ∈ (ofResidue r).free ∧ more.get? x = none := by
  rw [free_ofResidue h, Expr.Unbound, h.free_iff]
  refine and_congr_right fun hx => and_iff_left ?_
  exact ((h.lists_unknowns.2 x).mp hx).2.2

end Compiled

/-- The unknowns of a reduction are the free names of what is left and also the unbound names of the
whole; evaluation and prepared expressions report no others, and no term of a fold reports any. -/
theorem unknowns_exact (b : Bindings) :
    (∀ (e : Expr) (r : Residue), e.partialEval b = .ok r →
      r.unknowns.Lists r.expr.Free ∧ r.unknowns.Lists (e.Unbound b) ∧
      ((∃ v, r.expr = .lit v) ↔ r.unknowns = [])) ∧
    (∀ (e : Expr) (names : List String), e.eval b = .error (.undefinedVariables names) →
      names ≠ [] ∧ Names.Lists names (e.Unbound b)) ∧
    (∀ (src : String) (e : Expr) (c : Compiled), Expr.parse src = .ok e →
      compileText src b = .ok c → c.free.Lists (e.Unbound b) ∧ ∀ more : Bindings,
        (∀ v, c.call more = .ok v → ∀ x ∈ c.free, more.get? x ≠ none) ∧
        ∀ names, c.call more = .error (.undefinedVariables names) →
          names ≠ [] ∧ Names.Lists names fun x => x ∈ c.free ∧ more.get? x = none) ∧
    ∀ (body : Expr) (env : Env) (index : String) (rest : Residue),
      body.reduce (env.extend index none) = .ok rest → rest.unknowns.erase index = [] →
      ∀ (i : Float) (names : List String),
        (do (← rest.expr.reduce (env.extend index (some i))).finish) ≠
          Except.error (.undefinedVariables names) := by
  refine ⟨fun e r hr => ?_, fun e names => Expr.eval_eq_undefinedVariables, ?_, ?_⟩
  · have hleft := Expr.reduces hr
    have hfree := hleft.lists_unknowns.congr fun x =>
      (hleft.lists_unknowns.2 x).symm.trans (hleft.free_iff x).symm
    exact ⟨hfree, hleft.lists_unknowns, hleft.exists_lit_iff⟩
  · intro src e c he hc
    obtain ⟨e', he', hc⟩ := bind_eq_ok_iff.mp hc
    obtain rfl := Except.ok.inj (he.symm.trans he')
    obtain ⟨r, hr, hc⟩ := bind_eq_ok_iff.mp hc
    obtain rfl := Except.ok.inj hc
    have hleft := Expr.reduces hr
    have hmissing := Compiled.unbound_residue_iff hleft
    refine ⟨Compiled.free_ofResidue hleft ▸ hleft.lists_unknowns, fun more => ⟨?_, ?_⟩⟩
    · intro v hv x hx hnone
      rw [Compiled.call_ofResidue] at hv
      exact Expr.not_unbound_of_eval hv x ((hmissing more x).mpr ⟨hx, hnone⟩)
    · intro names h
      rw [Compiled.call_ofResidue] at h
      obtain ⟨hne, hlists⟩ := Expr.eval_eq_undefinedVariables h
      exact ⟨hne, hlists.congr (hmissing more)⟩
  · intro body env index rest hb hn i names h
    exact Expr.reduce_ne_undefinedVariables _ _ names
      (Expr.reduce_term_eq_error (Expr.reduces hb) hn h)

/-- The sum has an index that is also missing in the value of `y`. -/
theorem unknowns_exact_shadowed :
    let e : Expr := .bind "y" (.binary .multiply (.var "n") (.var "x"))
      (.quantified .sum "x" (.lit 1.0) (.var "n") (.binary .multiply (.var "x") (.var "a")))
    let src := "y = n x; sum(x = 1, n, x a)"
    let b : Bindings := [("n", 2.0)]
    let more : Bindings := [("a", 7.0)]
    (∃ r, e.partialEval b = .ok r ∧ r.unknowns = ["a", "x"] ∧ r.unknowns.Lists r.expr.Free ∧
      r.unknowns.Lists (e.Unbound b)) ∧
    (e.eval b = .error (.undefinedVariables ["a", "x"]) ∧
      Names.Lists ["a", "x"] (e.Unbound b)) ∧
    (∃ e' c, Expr.parse src = .ok e' ∧ compileText src b = .ok c ∧ c.free.Lists (e'.Unbound b) ∧
      c.call more = .error (.undefinedVariables ["x"]) ∧
      Names.Lists ["x"] fun x => x ∈ c.free ∧ more.get? x = none) ∧
    ∃ rest, (Expr.unary .minus (.var "x")).reduce ((Env.ofBindings b).extend "x" none) = .ok rest ∧
      rest.unknowns.erase "x" = [] ∧ ∀ names,
        (do (← rest.expr.reduce ((Env.ofBindings b).extend "x" (some 3.0))).finish) ≠
          Except.error (.undefinedVariables names) := by
  intro e src b more
  obtain ⟨r, hr, hn⟩ : ∃ r, e.partialEval b = .ok r ∧ r.unknowns = ["a", "x"] :=
    ⟨_, rfl, by decide +kernel⟩
  obtain ⟨hfree, hunbound, -⟩ := (unknowns_exact b).1 e r hr
  have he : e.eval b = .error (.undefinedVariables ["a", "x"]) := by decide +kernel
  have hbuilt : (compileText src b).toBool = true := by decide +kernel
  have hcall : (compileText src b >>= fun c => c.call more) =
      .error (.undefinedVariables ["x"]) := by decide +kernel
  cases hc : compileText src b with
  | error err => simp [hc, Except.toBool] at hbuilt
  | ok c =>
    rw [hc, ok_bind] at hcall
    obtain ⟨e', he', -⟩ := bind_eq_ok_iff.mp hc
    obtain ⟨hlists, hmore⟩ := (unknowns_exact b).2.2.1 src e' c he' hc
    obtain ⟨rest, hrest, hneeds⟩ : ∃ rest, (Expr.unary .minus (.var "x")).reduce
        ((Env.ofBindings b).extend "x" none) = .ok rest ∧ rest.unknowns.erase "x" = [] :=
      ⟨_, rfl, by decide +kernel⟩
    exact ⟨⟨r, hr, hn, hfree, hunbound⟩, ⟨he, ((unknowns_exact b).2.1 e _ he).2⟩,
      ⟨e', c, he', rfl, hlists, hcall, ((hmore more).2 _ hcall).2⟩, rest, hrest, hneeds,
      (unknowns_exact b).2.2.2 _ _ "x" rest hrest hneeds 3.0⟩

end DifferentialAnalyzer
