import DifferentialAnalyzer.Proofs.WholeNumbers
import DifferentialAnalyzer.Proofs.Expr.Chains

/-! The values that the index of a sum or product takes. There are as many as the range has whole
numbers, and they are these numbers, in order, if none of them is past 2⁵³. There the index stalls
or skips one. -/

namespace DifferentialAnalyzer

namespace Expr

open DifferentialAnalyzer.Binary64

/-- The values of an index that goes through a whole range, from one end to the other. -/
structure Covers (first last : Float) (is : List Float) : Prop where
  length : is.length = (whole last - whole first).natAbs + 1
  head : is.head? = some first
  ordered : is.Pairwise fun i j => if first ≤ last then i < j else j < i
  last : ∃ i, is.getLast? = some i ∧ (i == last) = true

section Counting

variable {first last x y step : Float}

/-- One step after another adds up, as long as none goes past 2⁵³. -/
theorem whole_iterate (hx : isIntegral x = true) (hstep : isIntegral step = true) {n : Nat}
    (h : ∀ k : Nat, 0 < k → k ≤ n → (whole x + k * whole step).natAbs ≤ 2 ^ 53) {k : Nat}
    (hk : k ≤ n) :
    isIntegral ((· + step)^[k] x) = true ∧
      whole ((· + step)^[k] x) = whole x + k * whole step := by
  induction k with
  | zero => exact ⟨hx, by rw [Int.natCast_zero, Int.zero_mul, Int.add_zero]; rfl⟩
  | succ k ih =>
    obtain ⟨hint, hwhole⟩ := ih (Nat.le_of_succ_le hk)
    have hsum : whole ((· + step)^[k] x) + whole step = whole x + (k + 1 : Nat) * whole step := by
      rw [hwhole, Int.natCast_succ, Int.add_mul, Int.one_mul, Int.add_assoc]
    rw [Function.iterate_succ_apply', ← hsum]
    exact whole_add hint hstep (hsum ▸ h (k + 1) k.succ_pos hk)

theorem isIntegral_one : isIntegral 1.0 = true ∧ whole 1.0 = 1 := by
  decide +kernel

theorem isIntegral_neg_one : isIntegral (-1.0) = true ∧ whole (-1.0) = -1 := by
  decide +kernel

theorem isIntegral_limit : isIntegral 1000000.0 = true ∧ whole 1000000.0 = 1000000 := by
  decide +kernel

/-- What a range needs, and how many terms it has. -/
theorem indices_eq_some_iff {is : List Float} :
    indices first last = some is ↔
      isIntegral first = true ∧ isIntegral last = true ∧
      (whole last - whole first).natAbs < maxTerms ∧
      is = List.iterate (· + if last < first then -1.0 else 1.0) first
        ((whole last - whole first).natAbs + 1) := by
  unfold indices
  by_cases hf : isIntegral first = true
  · by_cases hl : isIntegral last = true
    · have hspan := abs_sub_lt_iff hl hf isIntegral_limit.1 (isIntegral_limit.2 ▸ by decide)
      rw [isIntegral_limit.2] at hspan
      by_cases hlt : (whole last - whole first).natAbs < maxTerms
      · have hlt' : (last - first).abs < 1000000.0 := hspan.mpr (Int.ofNat_lt.mpr hlt)
        have hle : (whole last - whole first).natAbs ≤ 2 ^ 53 := hlt.le.trans (by decide)
        obtain ⟨hsub, hwhole⟩ := whole_sub hl hf hle
        obtain ⟨habs, hwhole'⟩ := whole_abs hsub
        rw [hwhole] at hwhole'
        have hcount : (last - first).abs.toUInt64.toNat = (whole last - whole first).natAbs := by
          rw [toNat_toUInt64 habs (by omega), hwhole', Int.toNat_natCast]
        simp only [hf, hl, hlt', hlt, hcount, and_self, if_true, true_and, Option.some.injEq]
        exact eq_comm
      · have hlt' : ¬ (last - first).abs < 1000000.0 := fun hc =>
          hlt (Int.ofNat_lt.mp (hspan.mp hc))
        simp [hlt', hlt]
    · simp [hl]
  · simp [hf]

theorem covers_iterate (hx : isIntegral x = true) (hy : isIntegral y = true)
    (hstep : isIntegral step = true) (hdir : whole step = if x ≤ y then 1 else -1)
    (h : whole x = whole y ∨ (whole x).natAbs ≤ 2 ^ 53 ∧ (whole y).natAbs ≤ 2 ^ 53) :
    Covers x y (List.iterate (· + step) x ((whole y - whole x).natAbs + 1)) := by
  obtain ⟨n, hn⟩ : ∃ n, n = (whole y - whole x).natAbs := ⟨_, rfl⟩
  have hup : x ≤ y ∧ whole step = 1 ∧ whole x ≤ whole y ∨
      ¬ x ≤ y ∧ whole step = -1 ∧ whole y < whole x := by
    have hle := le_iff_whole_le hx hy
    by_cases hxy : x ≤ y
    · exact .inl ⟨hxy, hdir.trans (if_pos hxy), hle.mp hxy⟩
    · exact .inr ⟨hxy, hdir.trans (if_neg hxy), Int.not_le.mp (mt hle.mpr hxy)⟩
  have hrun : ∀ k ≤ n, isIntegral ((· + step)^[k] x) = true ∧
      whole ((· + step)^[k] x) = whole x + k * whole step := by
    intro k hk
    refine whole_iterate hx hstep (fun j hj hjn => ?_) hk
    rcases hup with ⟨-, hd, hxy⟩ | ⟨-, hd, hxy⟩ <;> rw [hd] <;> omega
  rw [← hn]
  refine ⟨by rw [List.length_iterate, hn], rfl, ?_, (· + step)^[n] x, ?_, ?_⟩
  · rw [List.pairwise_iff_getElem]
    intro j k hj hk hjk
    rw [List.length_iterate] at hj hk
    obtain ⟨hintj, hwholej⟩ := hrun j (by omega)
    obtain ⟨hintk, hwholek⟩ := hrun k (by omega)
    rw [List.getElem_iterate, List.getElem_iterate]
    rcases hup with ⟨hxy, hd, -⟩ | ⟨hxy, hd, -⟩
    · rw [if_pos hxy, lt_iff_whole_lt hintj hintk, hwholej, hwholek, hd]
      omega
    · rw [if_neg hxy, lt_iff_whole_lt hintk hintj, hwholej, hwholek, hd]
      omega
  · rw [List.getLast?_eq_getElem?, List.length_iterate, Nat.add_sub_cancel]
    exact List.getElem?_iterate _ _ _ _ n.lt_succ_self
  · obtain ⟨hint, hwhole⟩ := hrun n le_rfl
    rw [beq_iff_whole_eq hint hy, hwhole]
    rcases hup with ⟨-, hd, hxy⟩ | ⟨-, hd, hxy⟩ <;> rw [hd] <;> omega

end Counting

section Gaps

variable {a b : Float} {is : List Float}

theorem add_le_of_ascending (hint : ∀ i ∈ is, isIntegral i = true) (hlt : is.Pairwise (· < ·))
    {j k : Nat} (hjk : j ≤ k) (hk : k < is.length) :
    whole is[j] + (k - j : Nat) ≤ whole is[k] := by
  induction k, hjk using Nat.le_induction with
  | base => rw [Nat.sub_self, Int.natCast_zero, Int.add_zero]
  | succ k hjk ih =>
    have hstep := List.pairwise_iff_getElem.mp hlt k (k + 1) (by omega) hk k.lt_succ_self
    rw [lt_iff_whole_lt (hint _ (List.getElem_mem _)) (hint _ (List.getElem_mem _))] at hstep
    have := ih (by omega)
    omega

/-- All the whole numbers between two are there only if none of them is past 2⁵³. -/
theorem natAbs_le_of_ascending (ha : isIntegral a = true) (hb : isIntegral b = true) {n : Nat}
    (hn : n < maxTerms) (hspan : whole b = whole a + (n + 1)) (hlength : is.length = n + 2)
    (hhead : is.head? = some a) (hlast : is.getLast? = some b) (hlt : is.Pairwise (· < ·)) :
    (whole a).natAbs ≤ 2 ^ 53 ∧ (whole b).natAbs ≤ 2 ^ 53 := by
  rw [List.head?_eq_getElem?] at hhead
  rw [List.getLast?_eq_getElem?, hlength] at hlast
  obtain ⟨h0, rfl⟩ := List.getElem?_eq_some_iff.mp hhead
  obtain ⟨hend, rfl⟩ := List.getElem?_eq_some_iff.mp hlast
  have hlt' := List.pairwise_iff_getElem.mp hlt
  have hmax : maxTerms = 1000000 := rfl
  by_contra hbig
  -- So large a double is a whole number.
  have hint : ∀ i ∈ is, isIntegral i = true := by
    intro i hi
    obtain ⟨k, hk, rfl⟩ := List.getElem_of_mem hi
    rcases Nat.eq_zero_or_pos k with rfl | hpos
    · exact ha
    · rcases Nat.lt_or_ge k (n + 1) with hk' | hk'
      · exact isIntegral_of_between ha hb (by omega) (hlt' 0 k h0 hk hpos)
          (hlt' k (n + 2 - 1) hk hend hk')
      · obtain rfl : k = n + 1 := by omega
        exact hb
  have hsecond : whole is[1] = whole is[0] + 1 := by
    have h1 := add_le_of_ascending hint hlt (Nat.zero_le 1) (by omega)
    have h2 := add_le_of_ascending hint hlt (j := 1) (k := n + 2 - 1) (by omega) (by omega)
    omega
  have hbefore : whole is[n + 2 - 1] = whole is[n] + 1 := by
    have h1 := add_le_of_ascending hint hlt (Nat.zero_le n) (by omega)
    have h2 := add_le_of_ascending hint hlt (j := n) (k := n + 2 - 1) (by omega) (by omega)
    omega
  exact hbig ⟨(natAbs_whole_le_of_succ ha (hint _ (List.getElem_mem _)) hsecond).1,
    (natAbs_whole_le_of_succ (hint _ (List.getElem_mem _)) hb hbefore).2⟩

theorem Covers.natAbs_le {x y : Float} (h : Covers x y is) (hx : isIntegral x = true)
    (hy : isIntegral y = true) (hspan : (whole y - whole x).natAbs < maxTerms) :
    whole x = whole y ∨ (whole x).natAbs ≤ 2 ^ 53 ∧ (whole y).natAbs ≤ 2 ^ 53 := by
  by_cases heq : whole x = whole y
  · exact .inl heq
  obtain ⟨n, hn⟩ := Nat.exists_eq_succ_of_ne_zero (n := (whole y - whole x).natAbs) (by omega)
  obtain ⟨hlength, hhead, hordered, z, hlast, hbeq⟩ := h
  obtain ⟨hz, hwhole⟩ := isIntegral_of_beq hy hbeq
  have hle := le_iff_whole_le hx hy
  rw [← hwhole] at hn hle hlength hspan ⊢
  rw [hn] at hlength hspan
  by_cases hxy : x ≤ y
  · simp only [hxy, if_true] at hordered
    rw [hle] at hxy
    exact .inr (natAbs_le_of_ascending hx hz (n := n) (by omega) (by omega) hlength hhead hlast
      hordered)
  · simp only [hxy, if_false] at hordered
    rw [hle] at hxy
    exact .inr (natAbs_le_of_ascending hz hx (n := n) (by omega) (by omega)
      (by rw [List.length_reverse, hlength]) (by rw [List.head?_reverse, hlast])
      (by rw [List.getLast?_reverse, hhead]) (List.pairwise_reverse.mpr hordered)).symm

end Gaps

theorem covers_iff {x y : Float} {is : List Float} (h : indices x y = some is) :
    Covers x y is ↔
      whole x = whole y ∨ (whole x).natAbs ≤ 2 ^ 53 ∧ (whole y).natAbs ≤ 2 ^ 53 := by
  obtain ⟨hx, hy, hspan, rfl⟩ := indices_eq_some_iff.mp h
  refine ⟨fun hcovers => hcovers.natAbs_le hx hy hspan, fun hsmall => ?_⟩
  have hlt := lt_iff_whole_lt hy hx
  have hle := le_iff_whole_le hx hy
  by_cases hyx : y < x
  · have hxy : ¬ x ≤ y := by
      rw [hlt] at hyx
      rwa [hle, Int.not_le]
    rw [if_pos hyx]
    exact covers_iterate hx hy isIntegral_neg_one.1 (isIntegral_neg_one.2.trans (if_neg hxy).symm)
      hsmall
  · have hxy : x ≤ y := by
      rw [hlt, Int.not_lt] at hyx
      rwa [hle]
    rw [if_neg hyx]
    exact covers_iterate hx hy isIntegral_one.1 (isIntegral_one.2.trans (if_pos hxy).symm) hsmall

/-- What a sum or product folds is the values of its body, one for each whole number from end to
end. The index takes these numbers, in order, if none of them is past 2⁵³, and only then. -/
theorem covers_iff_of_partialEval {kind : Quantifier} {index : String} {first last body : Expr}
    {b : Bindings} {r : Residue} {v : Float}
    (h : (Expr.quantified kind index first last body).partialEval b = .ok r)
    (hv : r.expr.value? = some v) :
    ∃ x y is vs, first.eval b = .ok x ∧ last.eval b = .ok y ∧
      isIntegral x = true ∧ isIntegral y = true ∧ (whole y - whole x).natAbs < maxTerms ∧
      indices x y = some is ∧
      List.Forall₂ (fun i w => body.eval (b.insert index i) = .ok w) is vs ∧
      vs.foldl kind.combine kind.identity = v ∧
      is.length = (whole y - whole x).natAbs + 1 ∧ is.head? = some x ∧
      (Covers x y is ↔
        whole x = whole y ∨ (whole x).natAbs ≤ 2 ^ 53 ∧ (whole y).natAbs ≤ 2 ^ 53) := by
  obtain ⟨x, y, hx, hy, hfold⟩ := value_quantified_iff.mp (value_eq_ok_iff.mpr ⟨r, h, hv⟩)
  obtain ⟨is, vs, his, hvs, hfoldl⟩ := fold_eq_ok_iff.mp hfold
  obtain ⟨hintx, hinty, hspan, heq⟩ := indices_eq_some_iff.mp his
  have hbody : ∀ i, body.value ((Env.ofBindings b).extend index (some i)) =
      body.eval (b.insert index i) := fun i =>
    LetChain.value_eq_eval (LetChain.lookup_insert (fun _ => rfl) index i) body
  simp only [hbody] at hvs
  refine ⟨x, y, is, vs, hx, hy, hintx, hinty, hspan, his, hvs, hfoldl, ?_, ?_, covers_iff his⟩
  · rw [heq, List.length_iterate]
  · rw [heq]
    rfl

/-- Squares from three down to one. -/
theorem covers_squares :
    ∃ r, (Expr.quantified .sum "i" (.lit 3.0) (.var "n")
        (.binary .multiply (.var "i") (.var "i"))).partialEval [("n", 1.0)] = .ok r ∧
      r.expr.value? = some 14.0 ∧ Covers 3.0 1.0 [3.0, 2.0, 1.0] := by
  have hsum : (Expr.quantified .sum "i" (.lit 3.0) (.var "n")
      (.binary .multiply (.var "i") (.var "i"))).eval [("n", 1.0)] = .ok 14.0 := by decide +kernel
  have hfirst : (Expr.lit 3.0).eval [("n", 1.0)] = .ok 3.0 := by decide +kernel
  have hlast : (Expr.var "n").eval [("n", 1.0)] = .ok 1.0 := by decide +kernel
  have hindices : indices 3.0 1.0 = some [3.0, 2.0, 1.0] := by decide +kernel
  obtain ⟨r, hr, hv⟩ := value_eq_ok_iff.mp hsum
  obtain ⟨x, y, is, -, hx, hy, -, -, -, his, -, -, -, -, hcovers⟩ :=
    covers_iff_of_partialEval hr hv
  obtain rfl : 3.0 = x := Except.ok.inj (hfirst.symm.trans hx)
  obtain rfl : 1.0 = y := Except.ok.inj (hlast.symm.trans hy)
  obtain rfl : [3.0, 2.0, 1.0] = is := Option.some.inj (hindices.symm.trans his)
  exact ⟨r, hr, hv, hcovers.mpr (by decide +kernel)⟩

/-- Neither the end nor anything else past the start is a value of this index, so that the sum
misses the one term that is not zero. -/
theorem stalled_not_covered :
    ∃ (first last : Float) (body : Expr),
      first = 9007199254740992.0 ∧ last = 9007199254740994.0 ∧
      body = .binary .equal (.var "i") (.lit last) ∧
      isIntegral first = true ∧ isIntegral last = true ∧ (last - first).abs < 1000000.0 ∧
      (∃ r, (Expr.quantified .sum "i" (.lit first) (.lit last) body).partialEval [] = .ok r ∧
        r.expr.value? = some 0.0) ∧
      body.eval [("i", last)] = .ok 1.0 ∧
      indices first last = some [first, first, first] ∧ ¬ ∃ is, Covers first last is := by
  have hfirst : isIntegral 9007199254740992.0 = true := by decide +kernel
  have hlast : isIntegral 9007199254740994.0 = true := by decide +kernel
  have hspan : whole 9007199254740994.0 - whole 9007199254740992.0 = 2 := by decide +kernel
  have hpast : whole 9007199254740994.0 = 2 ^ 53 + 2 := by decide +kernel
  have hsum : (Expr.quantified .sum "i" (.lit 9007199254740992.0) (.lit 9007199254740994.0)
      (.binary .equal (.var "i") (.lit 9007199254740994.0))).eval [] = .ok 0.0 := by decide +kernel
  refine ⟨_, _, _, rfl, rfl, rfl, hfirst, hlast, by decide +kernel, value_eq_ok_iff.mp hsum,
    by decide +kernel, by decide +kernel, ?_⟩
  rintro ⟨is, his⟩
  have hsmall := his.natAbs_le hfirst hlast (by rw [hspan]; decide)
  omega

end Expr

end DifferentialAnalyzer
