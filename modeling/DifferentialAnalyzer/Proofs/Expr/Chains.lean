import DifferentialAnalyzer.Expr.LetChain
import DifferentialAnalyzer.Proofs.Expr.Culprits
import DifferentialAnalyzer.Proofs.Expr.Unknowns

/-! Blocks of bindings. Working through a block, with bindings that grow by one value after another,
comes to the same as reducing the whole of it, with local names. -/

namespace DifferentialAnalyzer

namespace Bindings

/-- Entries that replace those of the same name, later ones also earlier ones. -/
def override (base : Bindings) (entries : List (String × Float)) : Bindings :=
  entries.foldl (fun b entry => b.insert entry.1 entry.2) base

theorem override_cons (base : Bindings) (name : String) (v : Float)
    (entries : List (String × Float)) :
    base.override ((name, v) :: entries) = (base.insert name v).override entries :=
  rfl

theorem get?_override (base : Bindings) (entries : List (String × Float)) (name : String) :
    (base.override entries).get? name = (entries.reverse.lookup name).or (base.get? name) := by
  induction entries generalizing base with
  | nil => rfl
  | cons entry entries ih =>
    obtain ⟨n, v⟩ := entry
    rw [override_cons, ih, get?_insert, List.reverse_cons, List.lookup_append, Option.or_assoc]
    by_cases hn : name = n
    · simp [hn]
    · have hne : (name == n) = false := by simpa using hn
      simp [hn, List.lookup_cons, hne]

end Bindings

namespace Expr

/-- The bindings at the front, in order. -/
def chain : Expr → List (String × Expr)
  | .bind name value rest => (name, value) :: rest.chain
  | _ => []

/-- What the bindings at the front are for. -/
def ending : Expr → Expr
  | .bind _ _ rest => rest.ending
  | e => e

theorem chain_of_ne_bind {e : Expr} (h : ∀ name value rest, e ≠ .bind name value rest) :
    e.chain = [] ∧ e.ending = e := by
  cases e with
  | bind name value rest => exact absurd rfl (h name value rest)
  | _ => exact ⟨rfl, rfl⟩

/-- Induction over the bindings at the front. -/
theorem chain_induction {P : Expr → Prop}
    (bind : ∀ name value rest, P rest → P (.bind name value rest))
    (last : ∀ e, (∀ name value rest, e ≠ .bind name value rest) → P e) (e : Expr) : P e := by
  induction e with
  | bind name value rest _ ih => exact bind name value rest ih
  | _ => exact last _ (by simp)

/-- No phrase is a binding. -/
theorem Derives.ne_bind {s : Symbol} {ts rest : List Token} {e : Expr} (h : Derives s ts e rest)
    (name : String) (value cont : Expr) : e ≠ .bind name value cont := by
  induction h using Derives.rec (motive_2 := fun _ _ _ _ => True) with
  | operand h ih => exact ih
  | unsigned h ih => exact ih
  | base h ih => exact ih
  | bracketed ht h hs ih => exact ih
  | last => trivial
  | more => trivial
  | _ => exact Expr.noConfusion

/-- The names of bindings stand in the text in their order. -/
theorem Program.sublist {ts : List Token} {e : Expr} (h : Program ts e) :
    (e.chain.map Prod.fst).Sublist (ts.map Token.text) := by
  have hbound : ∀ {n a : Token} {ts mid : List Token} {rest : Expr}, Behind mid ts →
      (rest.chain.map Prod.fst).Sublist (mid.map Token.text) →
      (n.text :: rest.chain.map Prod.fst).Sublist ((n :: a :: ts).map Token.text) := by
    rintro n a _ mid rest ⟨front, -, rfl⟩ hsub
    refine .cons_cons _ (.cons _ (hsub.trans ?_))
    rw [List.map_append]
    exact List.sublist_append_right _ _
  induction h with
  | expression hb h =>
    rw [(chain_of_ne_bind h.ne_bind).1]
    exact List.nil_sublist _
  | last hn ha hv => exact hbound hv.behind (List.nil_sublist _)
  | closed hn ha hv hs => exact hbound hv.behind (List.nil_sublist _)
  | separated hn ha hv hs h ih => exact hbound ((Behind.tail _ _).trans hv.behind) ih
  | adjacent hn ha hv hb h ih => exact hbound hv.behind ih

end Expr

/-- Values of bindings one after another, each under the ones before it. -/
inductive Resolves : Bindings → List (String × Expr) → List (String × Float) → Prop
  | nil {b : Bindings} : Resolves b [] []
  | cons {b : Bindings} {name : String} {e : Expr} {v : Float} {entries : List (String × Expr)}
      {values : List (String × Float)} (hv : e.eval b = .ok v)
      (h : Resolves (b.insert name v) entries values) :
      Resolves b ((name, e) :: entries) ((name, v) :: values)

/-- The same said of each binding on its own. -/
structure Resolved (base : Bindings) (entries : List (String × Expr))
    (values : List (String × Float)) : Prop where
  names : values.map Prod.fst = entries.map Prod.fst
  evaluated : ∀ (i : Nat) (entry : String × Expr) (value : String × Float),
    entries[i]? = some entry → values[i]? = some value →
      entry.2.eval (base.override (values.take i)) = .ok value.2

theorem Resolves.resolved {b : Bindings} {entries : List (String × Expr)}
    {values : List (String × Float)} (h : Resolves b entries values) :
    Resolved b entries values := by
  induction h with
  | nil => exact ⟨rfl, by simp⟩
  | @cons b name e v entries values hv h ih =>
    refine ⟨by rw [List.map_cons, List.map_cons, ih.names], fun i entry value he hvalue => ?_⟩
    cases i with
    | zero =>
      obtain rfl := Option.some.inj he
      obtain rfl := Option.some.inj hvalue
      exact hv
    | succ i =>
      rw [List.take_succ_cons, Bindings.override_cons]
      exact ih.evaluated i entry value he hvalue

theorem Expr.eval_eq_ok_iff {e : Expr} {b : Bindings} {v : Float} :
    e.eval b = .ok v ↔ ∃ r, e.partialEval b = .ok r ∧ r.expr.value? = some v :=
  value_eq_ok_iff

namespace LetChain

open DifferentialAnalyzer.Expr (chain ending chain_induction)

theorem ofExpr_of_ne_bind {e : Expr} (h : ∀ name value rest, e ≠ .bind name value rest)
    (scope : Bindings) : ofExpr e scope = (e.eval scope >>= fun v => .ok ⟨[], v⟩) := by
  unfold ofExpr
  split
  next name value rest => exact absurd rfl (h name value rest)
  · rfl

theorem ofExpr_bind_eq_ok_iff {name : String} {value rest : Expr} {scope : Bindings}
    {c : LetChain} : ofExpr (.bind name value rest) scope = .ok c ↔
      ∃ v c', value.eval scope = .ok v ∧ ofExpr rest (scope.insert name v) = .ok c' ∧
        c = ⟨(name, v) :: c'.values, c'.result⟩ := by
  simp only [ofExpr, bind_eq_ok_iff, Expr.eval_eq_ok_iff]
  constructor
  · rintro ⟨r, hr, h⟩
    cases hv : r.expr.value? with
    | none => simp [hv] at h
    | some v =>
      simp only [hv] at h
      obtain ⟨c', hc', he⟩ := bind_eq_ok_iff.mp h
      exact ⟨v, c', ⟨r, hr, hv⟩, hc', (Except.ok.inj he).symm⟩
  · rintro ⟨v, c', ⟨r, hr, hv⟩, hc', rfl⟩
    exact ⟨r, hr, by simp [hv, hc']⟩

/-- What a block comes to: a value for each binding, and one for what they are for. -/
theorem ofExpr_eq_ok {e : Expr} {scope : Bindings} {c : LetChain}
    (h : ofExpr e scope = .ok c) : Resolves scope e.chain c.values := by
  induction e using chain_induction generalizing scope c with
  | bind name value rest ih =>
    obtain ⟨v, c', hv, hc', rfl⟩ := ofExpr_bind_eq_ok_iff.mp h
    exact .cons hv (ih hc')
  | last e he =>
    rw [ofExpr_of_ne_bind he] at h
    obtain ⟨v, -, hc⟩ := bind_eq_ok_iff.mp h
    obtain rfl := Except.ok.inj hc
    rw [(Expr.chain_of_ne_bind he).1]
    exact .nil

theorem lookup_insert {env : Env} {scope : Bindings}
    (h : ∀ x, env.lookup x = (Env.ofBindings scope).lookup x) (name : String) (v : Float)
    (x : String) :
    (env.extend name (some v)).lookup x = (Env.ofBindings (scope.insert name v)).lookup x := by
  rw [Env.lookup_extend, h, Env.lookup_ofBindings, Env.lookup_ofBindings, Bindings.get?_insert]
  by_cases hx : x = name <;> simp [hx]

theorem value_eq_eval {env : Env} {scope : Bindings}
    (h : ∀ x, env.lookup x = (Env.ofBindings scope).lookup x) (e : Expr) :
    e.value env = e.eval scope := by
  rw [Expr.value, Expr.reduce_congr fun x _ => h x]
  rfl

/-- Local names, and bindings that agree with them, give one result. -/
theorem value_eq_ok_iff {e : Expr} {env : Env} {scope : Bindings}
    (h : ∀ x, env.lookup x = (Env.ofBindings scope).lookup x) {v : Float} :
    e.value env = .ok v ↔ ∃ c, ofExpr e scope = .ok c ∧ c.result = v := by
  induction e using chain_induction generalizing env scope with
  | bind name value rest ih =>
    rw [Expr.value_bind_iff, value_eq_eval h value]
    simp only [ofExpr_bind_eq_ok_iff]
    constructor
    · rintro ⟨x, hx, hrest⟩
      obtain ⟨c, hc, rfl⟩ := (ih (lookup_insert h name x)).mp hrest
      exact ⟨_, ⟨x, c, hx, hc, rfl⟩, rfl⟩
    · rintro ⟨_, ⟨x, c, hx, hc, rfl⟩, rfl⟩
      exact ⟨x, hx, (ih (lookup_insert h name x)).mpr ⟨c, hc, rfl⟩⟩
  | last e he =>
    rw [value_eq_eval h, ofExpr_of_ne_bind he]
    cases e.eval scope <;> simp

theorem get?_eq (c : LetChain) (name : String) : c.get? name = c.toBindings.get? name := by
  have hoverride : c.toBindings = Bindings.override [] c.values := rfl
  rw [hoverride, Bindings.get?_override, get?]
  exact (Option.or_none).symm

/-- The last binding of a name counts. -/
theorem get?_eq_some_iff {c : LetChain} {name : String} {v : Float} :
    c.get? name = some v ↔ ∃ front back, c.values = front ++ (name, v) :: back ∧
      ∀ entry ∈ back, entry.1 ≠ name := by
  rw [get?, List.lookup_eq_some_iff]
  constructor
  · rintro ⟨back, front, he, hback⟩
    refine ⟨front.reverse, back.reverse, ?_, fun entry hentry => ?_⟩
    · rw [← List.reverse_reverse c.values, he]
      simp
    · exact (bne_iff_ne.mp (hback entry (List.mem_reverse.mp hentry))).symm
  · rintro ⟨front, back, he, hback⟩
    refine ⟨back.reverse, front.reverse, by rw [he]; simp, fun entry hentry => ?_⟩
    exact bne_iff_ne.mpr (hback entry (List.mem_reverse.mp hentry)).symm

theorem ofExpr_eq_unresolved {e : Expr} {scope : Bindings} {name : String} {missing : Names}
    (h : ofExpr e scope = .error (.unresolvedBinding name missing)) :
    ∃ front value back values r, e.chain = front ++ (name, value) :: back ∧
      Resolves scope front values ∧ value.partialEval (scope.override values) = .ok r ∧
      r.expr.value? = none ∧ r.unknowns = missing := by
  have hreduce : ∀ (e : Expr) (env : Env),
      e.reduce env ≠ .error (.unresolvedBinding name missing) := by
    intro e env h
    rcases Expr.reduce_eq_error h with h | h
    · exact h
    · exact h.1
  induction e using chain_induction generalizing scope with
  | bind n value rest ih =>
    rw [ofExpr] at h
    rcases bind_eq_error_iff.mp h with h | ⟨r, hr, h⟩
    · exact absurd h (hreduce value _)
    · cases hv : r.expr.value? with
      | none =>
        simp only [hv] at h
        obtain ⟨rfl, rfl⟩ := ExprError.unresolvedBinding.inj (Except.error.inj h)
        exact ⟨[], value, rest.chain, [], r, rfl, .nil, hr, hv, rfl⟩
      | some v =>
        simp only [hv] at h
        rcases bind_eq_error_iff.mp h with h | ⟨_, _, h⟩
        · obtain ⟨front, value', back, values, r', he, hvalues, hr', hv', hn⟩ := ih h
          have hvalue : value.eval scope = .ok v := Expr.eval_eq_ok_iff.mpr ⟨r, hr, hv⟩
          exact ⟨(n, value) :: front, value', back, (n, v) :: values, r', by rw [chain, he]; rfl,
            .cons hvalue hvalues, hr', hv', hn⟩
        · cases h
  | last e he =>
    rw [ofExpr_of_ne_bind he] at h
    rcases bind_eq_error_iff.mp h with h | ⟨_, _, h⟩
    · rcases bind_eq_error_iff.mp h with h | ⟨r, -, h⟩
      · exact absurd h (hreduce e _)
      · unfold Residue.finish at h
        split at h <;> cases h
    · cases h

theorem get?_override_eq_none_iff {base : Bindings} {entries : List (String × Expr)}
    {values : List (String × Float)} (h : Resolved base entries values) (x : String) :
    (base.override values).get? x = none ↔ base.get? x = none ∧ x ∉ entries.map Prod.fst := by
  have hlookup : values.reverse.lookup x = none ↔ x ∉ entries.map Prod.fst := by
    rw [← h.names, List.lookup_eq_none_iff, List.mem_map, not_exists]
    simp only [List.mem_reverse, bne_iff_ne, not_and, Prod.forall]
    exact forall_congr' fun n => forall_congr' fun v => imp_congr_right fun _ => ne_comm
  rw [Bindings.get?_override, Option.or_eq_none_iff, hlookup, and_comm]

/-- The first binding of a block that gets no value: those before it have theirs, and what is left
of it needs the names that are reported. -/
structure Unresolved (base : Bindings) (front : List (String × Expr)) (value : Expr)
    (missing : Names) : Prop where
  reduced : ∃ values r, Resolved base front values ∧
    value.partialEval (base.override values) = .ok r ∧ ∀ v, r.expr ≠ .lit v
  ne_nil : missing ≠ []
  lists : missing.Lists fun x =>
    value.Free x ∧ base.get? x = none ∧ x ∉ front.map Prod.fst ∧ Builtin.constant? x = none

theorem unresolved_of_ofExpr {e : Expr} {base : Bindings} {name : String} {missing : Names}
    (h : ofExpr e base = .error (.unresolvedBinding name missing)) :
    ∃ front value back, e.chain = front ++ (name, value) :: back ∧
      Unresolved base front value missing := by
  obtain ⟨front, value, back, values, r, he, hvalues, hr, hv, rfl⟩ := ofExpr_eq_unresolved h
  have hleft := Expr.reduces hr
  have hopen : ∀ v, r.expr ≠ .lit v := fun v hlit => by
    rw [Expr.value?_eq_some_iff.mpr hlit] at hv
    cases hv
  refine ⟨front, value, back, he, ⟨values, r, hvalues.resolved, hr, hopen⟩, fun hnil => ?_, ?_⟩
  · obtain ⟨v, hlit⟩ := hleft.exists_lit_iff.mpr hnil
    exact hopen v hlit
  · refine hleft.lists_unknowns.congr fun x => and_congr_right fun _ => ?_
    rw [get?_override_eq_none_iff hvalues.resolved, and_assoc]

/-- Parsing itself complains of no binding. -/
theorem parse_ne_unresolved (src name : String) (missing : List String) :
    Expr.parse src ≠ .error (.unresolvedBinding name missing) := by
  intro h
  rcases Token.tokenize_cases src with ⟨ts, hts, -⟩ | ⟨_, _, _, _, -, hts, -⟩
  · exact Expr.culprit_of_parse hts h
  · rw [Expr.parse, hts] at h
    cases h

/-- A block and the whole of its text come to the same value, and the values of its bindings are
those of their texts, each under the ones before. A block stops only at a binding that still needs
a name. -/
theorem ofText_agrees {src : String} (hsrc : isBlankText src = false) (base : Bindings) :
    ((∃ c, ofText src base = .ok c) ↔ ∃ v, evalText src base = .ok v) ∧
    (∀ c, ofText src base = .ok c → evalText src base = .ok c.result ∧
      (∃ ts e, tokenize src = .ok ts ∧ Expr.parse src = .ok e ∧
        (e.chain.map Prod.fst).Sublist (ts.map Token.text) ∧ Resolved base e.chain c.values) ∧
      ∀ name, c.get? name = c.toBindings.get? name ∧ ∀ v, c.get? name = some v ↔
        ∃ front back, c.values = front ++ (name, v) :: back ∧ ∀ entry ∈ back, entry.1 ≠ name) ∧
    ∀ name missing, ofText src base = .error (.unresolvedBinding name missing) →
      ∃ e front value back, Expr.parse src = .ok e ∧ e.chain = front ++ (name, value) :: back ∧
        Unresolved base front value missing := by
  have htext : ofText src base = (Expr.parse src >>= (ofExpr · base)) := by
    rw [ofText, if_neg (by simp [hsrc])]
  have hiff : ∀ v, evalText src base = .ok v ↔ ∃ c, ofText src base = .ok c ∧ c.result = v := by
    intro v
    simp only [evalText, htext, bind_eq_ok_iff]
    constructor
    · rintro ⟨e, he, hv⟩
      obtain ⟨c, hc, hresult⟩ := (value_eq_ok_iff fun _ => rfl).mp hv
      exact ⟨c, ⟨e, he, hc⟩, hresult⟩
    · rintro ⟨c, ⟨e, he, hc⟩, hresult⟩
      exact ⟨e, he, (value_eq_ok_iff fun _ => rfl).mpr ⟨c, hc, hresult⟩⟩
  refine ⟨?_, fun c hc => ⟨(hiff c.result).mpr ⟨c, hc, rfl⟩, ?_, fun name => ?_⟩,
    fun name missing h => ?_⟩
  · constructor
    · rintro ⟨c, hc⟩
      exact ⟨c.result, (hiff c.result).mpr ⟨c, hc, rfl⟩⟩
    · rintro ⟨v, hv⟩
      obtain ⟨c, hc, -⟩ := (hiff v).mp hv
      exact ⟨c, hc⟩
  · rw [htext] at hc
    obtain ⟨e, he, hc⟩ := bind_eq_ok_iff.mp hc
    obtain ⟨ts, hts, hprogram⟩ := (Expr.parse_eq_ok_iff src e).mp he
    exact ⟨ts, e, hts, he, hprogram.sublist, (ofExpr_eq_ok hc).resolved⟩
  · exact ⟨get?_eq c name, fun v => get?_eq_some_iff⟩
  · rw [htext] at h
    rcases bind_eq_error_iff.mp h with h | ⟨e, he, h⟩
    · exact absurd h (parse_ne_unresolved src name missing)
    · obtain ⟨front, value, back, hchain, hunresolved⟩ := unresolved_of_ofExpr h
      exact ⟨e, front, value, back, he, hchain, hunresolved⟩

/-- A name is bound anew from itself, and one binding needs a name from outside. -/
theorem ofText_agrees_rebound :
    let src := "a = 2\nb = a q; a = a + b; pi = 3; a pi"
    let base : Bindings := [("q", 3.0), ("a", 9.0)]
    isBlankText src = false ∧
    (∃ c, ofText src base = .ok c ∧ evalText src base = .ok c.result ∧
      c.get? "a" = c.toBindings.get? "a" ∧ c.get? "a" = some 8.0) ∧
    ∃ e front value back, Expr.parse src = .ok e ∧ e.chain = front ++ ("b", value) :: back ∧
      ofText src [] = .error (.unresolvedBinding "b" ["q"]) ∧ Unresolved [] front value ["q"] := by
  intro src base
  have hsrc : isBlankText src = false := by decide +kernel
  have hgood : (ofText src base).map (·.get? "a") = .ok (some 8.0) := by decide +kernel
  have hbad : (ofText src []).map (·.result) = .error (.unresolvedBinding "b" ["q"]) := by
    decide +kernel
  obtain ⟨-, hok, -⟩ := ofText_agrees hsrc base
  obtain ⟨-, -, herror⟩ := ofText_agrees hsrc []
  have herr : ofText src [] = .error (.unresolvedBinding "b" ["q"]) := by
    cases h : ofText src [] with
    | error err =>
      rw [h] at hbad
      exact congrArg _ (Except.error.inj hbad)
    | ok c =>
      rw [h] at hbad
      cases hbad
  obtain ⟨e, front, value, back, he, hchain, hunresolved⟩ := herror "b" ["q"] herr
  refine ⟨hsrc, ?_, e, front, value, back, he, hchain, herr, hunresolved⟩
  cases h : ofText src base with
  | error err =>
    rw [h] at hgood
    cases hgood
  | ok c =>
    rw [h] at hgood
    obtain ⟨hresult, -, hget⟩ := hok c h
    exact ⟨c, rfl, hresult, (hget "a").1, Except.ok.inj hgood⟩

end LetChain

end DifferentialAnalyzer
