import DifferentialAnalyzer.Proofs.Document.Numerals

/-! The nearest double depends on the value of a decimal only, and of a double's own value it is
that double. So the decimal with the fewest digits that stands for a double is read back as it. -/

namespace DifferentialAnalyzer

namespace Binary64

section Ratio

variable {k : Nat}

theorem compare_mul_right (hk : 0 < k) (a b : Nat) : compare (a * k) (b * k) = compare a b := by
  rcases Nat.lt_trichotomy a b with h | rfl | h
  · rw [compare_lt_iff_lt.mpr h, compare_lt_iff_lt.mpr (Nat.mul_lt_mul_of_pos_right h hk)]
  · rw [compare_eq_iff_eq.mpr rfl, compare_eq_iff_eq.mpr rfl]
  · rw [compare_gt_iff_gt.mpr h, compare_gt_iff_gt.mpr (Nat.mul_lt_mul_of_pos_right h hk)]

theorem roundEven_mul (hk : 0 < k) (num den : Nat) :
    roundEven (num * k) (den * k) = roundEven num den := by
  simp only [roundEven, Nat.mul_div_mul_right _ _ hk, Nat.mul_mod_mul_right, ← Nat.mul_assoc,
    compare_mul_right hk]

theorem roundUnits_mul (hk : 0 < k) (num den : Nat) :
    roundUnits (num * k) (den * k) = roundUnits num den := by
  simp only [roundUnits, Nat.mul_div_mul_right _ _ hk, Nat.mul_right_comm den k, roundEven_mul hk]

/-- Equal ratios have the same nearest double. -/
theorem nearest_congr {a b c d : Nat} (hb : 0 < b) (hd : 0 < d) (h : a * d = c * b) :
    nearest a b = nearest c d := by
  rw [nearest, nearest, ← roundUnits_mul hd, ← roundUnits_mul hb (c * unitsPerOne),
    Nat.mul_right_comm, h, Nat.mul_right_comm, Nat.mul_comm b d]

end Ratio

theorem roundEven_mul_self {den : Nat} (h : 0 < den) (n : Nat) : roundEven (n * den) den = n := by
  simp only [roundEven, Nat.mul_mod_left, Nat.mul_zero, Nat.mul_div_cancel n h,
    compare_lt_iff_lt.mpr h]

theorem significand_bounds {rank : Nat} (h : binade ≤ rank) :
    binade ≤ significand rank ∧ significand rank < 2 * binade := by
  have hmod : rank % binade < binade := Nat.mod_lt _ (Nat.pow_pos (by decide))
  rw [significand, if_neg (Nat.not_lt.mpr h)]
  omega

theorem log2_units {rank : Nat} (h0 : rank ≠ 0) :
    (units rank).log2 - 52 = rank / binade - 1 := by
  have hbinade : binade = 2 ^ 52 := rfl
  have hunits := Decimal.units_ne_zero h0
  rcases Nat.lt_or_ge rank binade with hlt | hge
  · have heq : units rank = rank := by simp [units, significand, hlt, Nat.div_eq_of_lt hlt]
    have hlog : rank.log2 < 52 := (Nat.log2_lt h0).mpr (hbinade ▸ hlt)
    rw [heq, Nat.div_eq_of_lt hlt]
    omega
  · obtain ⟨hlow, hhigh⟩ := significand_bounds hge
    have hshift : 0 < 2 ^ (rank / binade - 1) := Nat.pow_pos (by decide)
    have hlog : (units rank).log2 = 52 + (rank / binade - 1) := by
      refine (Nat.log2_eq_iff hunits).mpr ⟨?_, ?_⟩
      · rw [Nat.pow_add, ← hbinade]
        exact Nat.mul_le_mul_right _ hlow
      · rw [Nat.add_right_comm, Nat.pow_add, Nat.pow_succ, ← hbinade, Nat.mul_comm binade]
        exact Nat.mul_lt_mul_of_pos_right hhigh hshift
    rw [hlog, Nat.add_sub_cancel_left]

theorem shift_add_significand (rank : Nat) :
    (rank / binade - 1) * binade + significand rank = rank := by
  rcases Nat.lt_or_ge rank binade with hlt | hge
  · rw [significand, if_pos hlt, Nat.div_eq_of_lt hlt, Nat.zero_sub, Nat.zero_mul, Nat.zero_add]
  · have hpos : 1 ≤ rank / binade := Nat.div_pos hge (Nat.pow_pos (by decide))
    rw [significand, if_neg (Nat.not_lt.mpr hge), ← Nat.add_assoc, ← Nat.succ_mul,
      Nat.succ_eq_add_one, Nat.sub_add_cancel hpos, Nat.div_add_mod']

/-- Rounding leaves the value of a double as it is. -/
theorem roundUnits_units {rank : Nat} (h0 : rank ≠ 0) (h : rank < infinityRank) :
    roundUnits (units rank) 1 = rank := by
  have hround : roundEven (units rank) (1 * Nat.pow 2 (rank / binade - 1)) = significand rank := by
    have hshift : 0 < Nat.pow 2 (rank / binade - 1) := Nat.pow_pos (by decide)
    rw [Nat.one_mul, units, roundEven_mul_self hshift]
  simp only [roundUnits, Nat.div_one, log2_units h0, hround, shift_add_significand]
  exact Nat.min_eq_left (Nat.le_of_lt h)

theorem units_lt {rank k : Nat} (h : rank / binade ≤ k + 1) :
    units rank < 2 ^ 53 * Nat.pow 2 k := by
  have hbinade : binade = 2 ^ 52 := rfl
  have hsignificand : significand rank < 2 ^ 53 := by
    rcases Nat.lt_or_ge rank binade with hlt | hge
    · rw [significand, if_pos hlt]
      omega
    · have := (significand_bounds hge).2
      omega
  refine Nat.mul_lt_mul_of_lt_of_le hsignificand ?_ (Nat.pow_pos (by decide))
  exact Nat.pow_le_pow_right (by decide) (by omega)

end Binary64

namespace Decimal

open Binary64

section Digits

variable {n k : Nat}

theorem length_toDigits_eq_iff (h : n ≠ 0) :
    (Nat.toDigits 10 n).length = k + 1 ↔ 10 ^ k ≤ n ∧ n < 10 ^ (k + 1) := by
  have hle : (Nat.toDigits 10 n).length ≤ k ↔ n < 10 ^ k := by
    rcases Nat.eq_zero_or_pos k with rfl | hk
    · have hpos : 0 < (Nat.toDigits 10 n).length := Nat.length_toDigits_pos
      rw [Nat.pow_zero]
      omega
    · exact Nat.length_toDigits_le_iff (by decide) hk
  rw [← Nat.length_toDigits_le_iff (by decide) (Nat.succ_pos k), ← Nat.not_lt, ← hle]
  omega

theorem length_toDigits_mul_pow (h : n ≠ 0) (k : Nat) :
    (Nat.toDigits 10 (n * 10 ^ k)).length = (Nat.toDigits 10 n).length + k := by
  obtain ⟨j, hj⟩ := Nat.exists_eq_succ_of_ne_zero
    (Nat.ne_of_gt (Nat.length_toDigits_pos (b := 10) (n := n)))
  obtain ⟨hlow, hhigh⟩ := (length_toDigits_eq_iff h).mp hj
  have hpow : 0 < 10 ^ k := Nat.pow_pos (by decide)
  rw [hj, Nat.succ_eq_add_one, Nat.add_right_comm]
  refine (length_toDigits_eq_iff (Nat.mul_ne_zero h hpow.ne')).mpr ⟨?_, ?_⟩
  · rw [Nat.pow_add]
    exact Nat.mul_le_mul_right _ hlow
  · rw [Nat.add_right_comm, Nat.pow_add]
    exact Nat.mul_lt_mul_of_pos_right hhigh hpow

end Digits

/-- Zeros at the end of the coefficient can be counted in the exponent. -/
theorem rank_mul_pow (c k : Nat) (e : Int) : rank ⟨c * 10 ^ k, e⟩ = rank ⟨c, e + k⟩ := by
  by_cases hc : c = 0
  · simp [rank, hc]
  have hne : c * 10 ^ k ≠ 0 := Nat.mul_ne_zero hc (Nat.pow_pos (by decide)).ne'
  have hlead : leadExponent ⟨c * 10 ^ k, e⟩ = leadExponent ⟨c, e + k⟩ := by
    simp only [leadExponent, digits, length_toDigits_mul_pow hc k]
    omega
  have hnearest : nearest (numerator ⟨c * 10 ^ k, e⟩) (denominator ⟨c * 10 ^ k, e⟩) =
      nearest (numerator ⟨c, e + k⟩) (denominator ⟨c, e + k⟩) := by
    refine nearest_congr (Nat.pow_pos (by decide)) (Nat.pow_pos (by decide)) ?_
    have hexponent : k + e.toNat + (-(e + k)).toNat = (e + k).toNat + (-e).toNat := by omega
    simp only [numerator, denominator, Nat.pow_eq]
    rw [Nat.mul_assoc, Nat.mul_assoc, Nat.mul_assoc, ← Nat.pow_add, ← Nat.pow_add, ← Nat.pow_add,
      ← Nat.add_assoc, hexponent]
  simp only [rank, hlead, hnearest, if_neg hc, if_neg hne]

theorem length_toDigits_le {c high : Nat} (h0 : c ≠ 0) (h : c < Nat.pow 10 high) :
    (Nat.toDigits 10 c).length ≤ high := by
  have hpos : 0 < high := Nat.pos_of_ne_zero fun hzero => by
    subst hzero
    exact h0 (Nat.lt_one_iff.mp h)
  exact (Nat.length_toDigits_le_iff (by decide) hpos).mpr h

theorem lt_length_toDigits {c low : Nat} (h : Nat.pow 10 low ≤ c) :
    low < (Nat.toDigits 10 c).length := by
  by_contra hle
  have hpos : 0 < (Nat.toDigits 10 c).length := Nat.length_toDigits_pos
  have hlt := (Nat.length_toDigits_le_iff (b := 10) (by decide) (by omega)).mp (Nat.not_lt.mp hle)
  exact Nat.not_lt.mpr h hlt

/-- Every digit of a double. The powers have names here, so that none of them is worked out. -/
theorem rank_units_mul_pow {rank n m low high : Nat} (h0 : rank ≠ 0) (h : rank < infinityRank)
    (hn : unitsPerOne = Nat.pow 2 n) (hm : rank / binade ≤ m + 1)
    (hlow : Nat.pow 10 low ≤ Nat.pow 5 n) (hle : n ≤ low + 324)
    (hhigh : 2 ^ 53 * Nat.pow 2 m * Nat.pow 5 n ≤ Nat.pow 10 high) (hge : high ≤ n + 309) :
    Decimal.rank ⟨units rank * Nat.pow 5 n, -(n : Int)⟩ = rank := by
  have hunits := units_ne_zero h0
  have hpow : Nat.pow 5 n ≠ 0 := pow_ne_zero (by decide) n
  have hne : units rank * Nat.pow 5 n ≠ 0 := Nat.mul_ne_zero hunits hpow
  have hmost : (Nat.toDigits 10 (units rank * Nat.pow 5 n)).length ≤ high :=
    length_toDigits_le hne (Nat.lt_of_lt_of_le
      (Nat.mul_lt_mul_of_pos_right (units_lt hm) (Nat.pos_of_ne_zero hpow)) hhigh)
  have hleast : low < (Nat.toDigits 10 (units rank * Nat.pow 5 n)).length :=
    lt_length_toDigits (Nat.le_trans hlow (Nat.le_mul_of_pos_left _ (Nat.pos_of_ne_zero hunits)))
  have hnearest : nearest (units rank * Nat.pow 5 n * Nat.pow 10 0) (Nat.pow 10 n) = rank := by
    have hten : 0 < Nat.pow 10 n := Nat.pow_pos (by decide)
    have hmul : units rank * Nat.pow 5 n * Nat.pow 10 0 * Nat.pow 2 n =
        units rank * Nat.pow 10 n := by
      simp only [Nat.pow_eq, Nat.pow_zero, Nat.mul_one]
      rw [Nat.mul_assoc, ← Nat.mul_pow]
    have hcancel := roundUnits_mul hten (units rank) 1
    rw [Nat.one_mul] at hcancel
    rw [nearest, hn, hmul, hcancel, roundUnits_units h0 h]
  have htoNat : (-(-(n : Int))).toNat = n := by omega
  have htoNat' : (-(n : Int)).toNat = 0 := by omega
  unfold Decimal.rank
  simp only [leadExponent, digits, numerator, denominator, htoNat, htoNat', hnearest]
  rw [if_neg hne, if_neg (by omega), if_neg (by omega)]

theorem rank_ofRank {rank : Nat} (h0 : rank ≠ 0) (h : rank < infinityRank) :
    (ofRank rank).rank = rank := by
  have hm : rank / binade ≤ 2045 + 1 :=
    Nat.le_of_lt_succ (Nat.div_lt_of_lt_mul (Nat.mul_comm 2047 binade ▸ h))
  exact @rank_units_mul_pow rank 1074 2045 750 1383 h0 h (by decide +kernel) hm
    (by decide +kernel) (by decide) (by decide +kernel) (by decide)

/-- What stands for a double is read as it. -/
theorem rank_shortest (tie : Tie) {rank : Nat} (h0 : rank ≠ 0) (h : rank < infinityRank) :
    (shortest tie rank).rank = rank := by
  rw [shortest]
  cases hfind : (List.range 17).findSome? fun (n : Nat) =>
      onGrid tie rank (leadOfRank rank - n) with
  | none => exact rank_ofRank h0 h
  | some d =>
    obtain ⟨n, -, hd⟩ := List.exists_of_findSome?_eq_some hfind
    exact rank_onGrid hd

theorem ofDigits_append_replicate (ds : List Char) (k : Nat) :
    ofDigits (ds ++ List.replicate k '0') = ofDigits ds * 10 ^ k := by
  induction k with
  | zero => simp
  | succ k ih =>
    have hzero : digitValue '0' = 0 := rfl
    rw [List.replicate_succ', ← List.append_assoc, ofDigits, List.foldl_append, ← ofDigits, ih]
    simp only [List.foldl_cons, List.foldl_nil, hzero, Nat.add_zero]
    rw [Nat.pow_succ, Nat.mul_left_comm, Nat.mul_comm 10]

theorem ofDigits_replicate_append (ds : List Char) (k : Nat) :
    ofDigits (List.replicate k '0' ++ ds) = ofDigits ds := by
  induction k with
  | zero => rfl
  | succ k ih => exact ih

namespace Numeral

/-- The number that the digits stand for. -/
def value (n : Numeral) : Decimal :=
  ⟨ofDigits n.digits, n.lead + 1 - n.digits.length⟩

theorem exists_trimmed (n : Numeral) :
    ∃ k, n.digits = n.trimmed.digits ++ List.replicate k '0' := by
  refine ⟨(n.digits.rtakeWhile (· == '0')).length, ?_⟩
  have hzeros := List.eq_replicate_of_mem fun c (hc : c ∈ n.digits.rtakeWhile (· == '0')) => by
    simpa using List.mem_rtakeWhile_imp hc
  rw [← hzeros]
  exact List.rdropWhile_append_rtakeWhile.symm

theorem rank_value_trimmed (d : Decimal) : d.numeral.trimmed.value.rank = d.rank := by
  obtain ⟨k, hk⟩ := exists_trimmed d.numeral
  have hlength := congrArg List.length hk
  rw [List.length_append, List.length_replicate] at hlength
  have hc : ofDigits d.numeral.trimmed.digits * 10 ^ k = d.coefficient := by
    rw [← ofDigits_append_replicate, ← hk]
    exact ofDigits_toDigits d.coefficient
  have he : d.numeral.trimmed.lead + 1 - d.numeral.trimmed.digits.length = d.exponent + k := by
    have hlead : d.numeral.trimmed.lead = d.exponent + d.numeral.digits.length - 1 := rfl
    omega
  rw [value, he, ← rank_mul_pow, hc]

theorem rank_value_shortestNumeral (tie : Tie) {rank : Nat} (h : rank < infinityRank) :
    (shortestNumeral tie rank).value.rank = rank := by
  unfold shortestNumeral
  split
  next h0 =>
    subst h0
    rfl
  next h0 => rw [rank_value_trimmed, rank_shortest tie h0 h]

end Numeral

end Decimal

end DifferentialAnalyzer
