import DifferentialAnalyzer.Proofs.FloatRounding

/-! Doubles that are whole numbers. Up to 2⁵³ there is one for every whole number, so that sums and
differences up to there are exact; past 2⁵³ there is none for an odd one. -/

namespace DifferentialAnalyzer

namespace Binary64

open Float.Model (UnpackedFloat)
open Float.Model.UnpackedFloat (ExtendedMantissa decreaseExponent shiftToExponent roundToInt)

/-- A finite double without its fractional part, if it has none below zero. -/
def whole (x : Float) : Int :=
  value x / unitsPerOne

/-- The exponent gets a name, so that the power is not worked out. -/
theorem exists_unitsPerOne_eq : ∃ k, k = 1074 ∧ unitsPerOne = 2 ^ k :=
  ⟨_, rfl, by decide +kernel⟩

theorem unitsPerOne_pos : 0 < unitsPerOne := by
  obtain ⟨k, -, hunits⟩ := exists_unitsPerOne_eq
  exact hunits ▸ Nat.two_pow_pos k

theorem magnitude_eq_mul {j : Nat} (n : Nat) : magnitude n j = n * (2 ^ j * unitsPerOne) := by
  obtain ⟨k, hk, hunits⟩ := exists_unitsPerOne_eq
  rw [hunits]
  clear hunits
  have hexp : ((j : Int) + 1074).toNat = j + k := by omega
  rw [magnitude, hexp, Nat.pow_add]

section Whole

variable {x y : Float}

theorem isIntegral_iff :
    isIntegral x = true ↔ x.isFinite = true ∧ value x = whole x * unitsPerOne := by
  have hdvd : (units (rank x) % unitsPerOne == 0) = true ↔ (unitsPerOne : Int) ∣ value x := by
    rw [beq_iff_eq, ← Nat.dvd_iff_mod_eq_zero, ← Int.natCast_dvd_natCast, value]
    split
    · rw [Int.dvd_neg]
    · rfl
  rw [isIntegral, Bool.and_eq_true, hdvd, whole]
  refine and_congr_right fun _ => ⟨fun h => (Int.ediv_mul_cancel h).symm, fun h => ?_⟩
  exact ⟨_, h.trans (Int.mul_comm _ _)⟩

theorem isIntegral_of_value {n : Int} (hx : x.isFinite = true) (h : value x = n * unitsPerOne) :
    isIntegral x = true ∧ whole x = n := by
  have hwhole : whole x = n := by
    rw [whole, h, Int.mul_ediv_cancel _ (Int.natCast_pos.mpr unitsPerOne_pos).ne']
  exact ⟨isIntegral_iff.mpr ⟨hx, by rw [hwhole, h]⟩, hwhole⟩

theorem lt_iff_whole_lt (hx : isIntegral x = true) (hy : isIntegral y = true) :
    x < y ↔ whole x < whole y := by
  obtain ⟨hx, hvx⟩ := isIntegral_iff.mp hx
  obtain ⟨hy, hvy⟩ := isIntegral_iff.mp hy
  rw [lt_iff_value_lt hx hy, hvx, hvy, Int.mul_lt_mul_right (Int.natCast_pos.mpr unitsPerOne_pos)]

theorem le_iff_whole_le (hx : isIntegral x = true) (hy : isIntegral y = true) :
    x ≤ y ↔ whole x ≤ whole y := by
  have hlt := not_le_iff_lt (isNaN_of_isFinite (isIntegral_iff.mp hx).1)
    (isNaN_of_isFinite (isIntegral_iff.mp hy).1)
  rw [lt_iff_whole_lt hy hx, ← Int.not_le] at hlt
  exact not_iff_not.mp hlt

theorem beq_iff_whole_eq (hx : isIntegral x = true) (hy : isIntegral y = true) :
    (x == y) = true ↔ whole x = whole y := by
  obtain ⟨hx, hvx⟩ := isIntegral_iff.mp hx
  obtain ⟨hy, hvy⟩ := isIntegral_iff.mp hy
  rw [beq_iff_value_eq hx hy, hvx, hvy,
    Int.mul_eq_mul_right_iff (Int.natCast_pos.mpr unitsPerOne_pos).ne']

theorem isIntegral_of_beq (hy : isIntegral y = true) (h : (x == y) = true) :
    isIntegral x = true ∧ whole x = whole y := by
  obtain ⟨hy, hvy⟩ := isIntegral_iff.mp hy
  have hx := isFinite_of_beq hy h
  exact isIntegral_of_value hx (((beq_iff_value_eq hx hy).mp h).trans hvy)

end Whole

section Exact

theorem exists_normal {n : Nat} (h0 : 0 < n) (h : n ≤ 2 ^ 53) :
    ∃ m e, 0 < m ∧ Normal m e ∧ e ≤ 971 ∧ magnitude m e = n * unitsPerOne := by
  rcases h.lt_or_eq with hlt | rfl
  · have hlog : n.log2 ≤ 52 := by
      have := (Nat.log2_lt h0.ne').mpr hlt
      omega
    have hlow : 2 ^ 52 ≤ n * 2 ^ (52 - n.log2) := by
      calc 2 ^ 52 = 2 ^ n.log2 * 2 ^ (52 - n.log2) := by rw [← Nat.pow_add]; congr 1; omega
        _ ≤ n * 2 ^ (52 - n.log2) := Nat.mul_le_mul_right _ (Nat.log2_self_le h0.ne')
    have hhigh : n * 2 ^ (52 - n.log2) < 2 ^ 53 := by
      calc n * 2 ^ (52 - n.log2) < 2 ^ (n.log2 + 1) * 2 ^ (52 - n.log2) :=
            Nat.mul_lt_mul_of_pos_right Nat.lt_log2_self (Nat.two_pow_pos _)
        _ = 2 ^ 53 := by rw [← Nat.pow_add]; congr 1; omega
    refine ⟨n * 2 ^ (52 - n.log2), n.log2 - 52, Nat.lt_of_lt_of_le (by decide) hlow,
      ⟨hhigh, by omega, .inl hlow⟩, by omega, ?_⟩
    obtain ⟨k, hk, hunits⟩ := exists_unitsPerOne_eq
    rw [hunits]
    clear hunits
    have hexp : 52 - n.log2 + ((n.log2 : Int) - 52 + 1074).toNat = k := by omega
    rw [magnitude, Nat.mul_assoc, ← Nat.pow_add, hexp]
  · refine ⟨2 ^ 52, 1, by decide, ⟨by decide, by decide, .inl le_rfl⟩, by decide, ?_⟩
    rw [← Int.natCast_one, magnitude_eq_mul, ← Nat.mul_assoc, ← Nat.pow_add]

/-- Up to 2⁵³ every whole number is the value of a double. -/
theorem exists_canonical {n : Int} (h : n.natAbs ≤ 2 ^ 53) :
    ∃ w, Canonical w ∧ scaled w = n * unitsPerOne := by
  rcases Int.lt_trichotomy n 0 with hneg | rfl | hpos
  · obtain ⟨m, e, hm, hn, he, heq⟩ := exists_normal (n := n.natAbs) (by omega) h
    refine ⟨_, .finite .negative hm hn he, ?_⟩
    rw [scaled, heq, UnpackedFloat.Sign.apply, Int.natCast_mul, ← Int.neg_mul,
      Int.ofNat_natAbs_of_nonpos hneg.le, Int.neg_neg]
  · exact ⟨_, .zero .positive, (Int.zero_mul _).symm⟩
  · obtain ⟨m, e, hm, hn, he, heq⟩ := exists_normal (n := n.natAbs) (by omega) h
    refine ⟨_, .finite .positive hm hn he, ?_⟩
    rw [scaled, heq, UnpackedFloat.Sign.apply, Int.natCast_mul, Int.natAbs_of_nonneg hpos.le]

variable {x y : Float}

theorem whole_add (hx : isIntegral x = true) (hy : isIntegral y = true)
    (h : (whole x + whole y).natAbs ≤ 2 ^ 53) :
    isIntegral (x + y) = true ∧ whole (x + y) = whole x + whole y := by
  obtain ⟨hx, hvx⟩ := isIntegral_iff.mp hx
  obtain ⟨hy, hvy⟩ := isIntegral_iff.mp hy
  obtain ⟨w, hw, heq⟩ := exists_canonical h
  rw [value_eq hx] at hvx
  rw [value_eq hy] at hvy
  obtain ⟨hu, hv⟩ := (canonical_unpack hx).add (canonical_unpack hy) hw
    (by rw [hvx, hvy, heq, Int.add_mul])
  obtain ⟨hf, hv'⟩ := value_of_unpack (x := x + y) hu rfl
  exact isIntegral_of_value hf (by rw [hv', hv, heq])

theorem whole_sub (hx : isIntegral x = true) (hy : isIntegral y = true)
    (h : (whole x - whole y).natAbs ≤ 2 ^ 53) :
    isIntegral (x - y) = true ∧ whole (x - y) = whole x - whole y := by
  obtain ⟨hx, hvx⟩ := isIntegral_iff.mp hx
  obtain ⟨hy, hvy⟩ := isIntegral_iff.mp hy
  obtain ⟨w, hw, heq⟩ := exists_canonical h
  rw [value_eq hx] at hvx
  rw [value_eq hy] at hvy
  obtain ⟨hu, hv⟩ := (canonical_unpack hx).sub (canonical_unpack hy) hw
    (by rw [hvx, hvy, heq, Int.sub_mul])
  obtain ⟨hf, hv'⟩ := value_of_unpack (x := x - y) hu rfl
  exact isIntegral_of_value hf (by rw [hv', hv, heq])

theorem whole_abs (hx : isIntegral x = true) :
    isIntegral x.abs = true ∧ whole x.abs = (whole x).natAbs := by
  obtain ⟨hx, hvx⟩ := isIntegral_iff.mp hx
  obtain ⟨hf, hv⟩ := value_abs hx
  refine isIntegral_of_value hf ?_
  rw [hv, hvx, Int.natAbs_mul, Int.natAbs_natCast, Int.natCast_mul]

end Exact

section Conversion

theorem mantissa_div_eq {m : Nat} {e : Int} (h : -1074 ≤ e) :
    m <<< e.toNat / 2 ^ (-e).toNat = magnitude m e / unitsPerOne := by
  obtain ⟨k, hk, hunits⟩ := exists_unitsPerOne_eq
  rw [hunits, magnitude, Nat.shiftLeft_eq]
  clear hunits
  rcases le_total 0 e with he | he
  · have hexp : (e + 1074).toNat = e.toNat + k := by omega
    have hzero : (-e).toNat = 0 := by omega
    rw [hexp, hzero, Nat.pow_add, ← Nat.mul_assoc, Nat.pow_zero, Nat.div_one,
      Nat.mul_div_cancel _ (Nat.two_pow_pos k)]
  · have hexp : k = (-e).toNat + (e + 1074).toNat := by omega
    have hzero : e.toNat = 0 := by omega
    rw [hzero, Nat.pow_zero, Nat.mul_one, hexp, Nat.pow_add,
      Nat.mul_div_mul_right _ _ (Nat.two_pow_pos _)]

/-- The fractional part is cut off. -/
theorem toInt_eq_tdiv {u : UnpackedFloat} (hu : Canonical u) (low high : Int) :
    u.toInt low high = (scaled u).tdiv unitsPerOne := by
  cases hu with
  | zero s => exact (Int.zero_tdiv _).symm
  | @finite s m e hm hn =>
    have hshift : (0 - (e - (e.toNat : Int))).toNat = (-e).toNat := by omega
    have htoInt : (UnpackedFloat.finite s m e hm).toInt low high =
        s.apply (m <<< e.toNat / 2 ^ (-e).toNat : Nat) := by
      simp only [UnpackedFloat.toInt, roundToInt, decreaseExponent, shiftToExponent,
        shiftRight_mantissa, ExtendedMantissa.ofMantissaAndAccuracy, Int.sub_zero, hshift]
    rw [htoInt, mantissa_div_eq hn.least, scaled]
    cases s with
    | positive => rfl
    | negative => exact (Int.neg_tdiv (magnitude m e : Int) unitsPerOne).symm

theorem toNat_tdiv {a : Int} {b : Nat} (hb : 0 < b) : (a.tdiv b).toNat = (a / b).toNat := by
  rcases le_total 0 a with ha | ha
  · rw [Int.tdiv_eq_ediv_of_nonneg ha]
  · have htdiv : 0 ≤ (-a).tdiv b := Int.tdiv_nonneg (by omega) (Int.natCast_nonneg b)
    have hediv := Int.ediv_le_ediv (Int.natCast_pos.mpr hb) ha
    rw [Int.neg_tdiv] at htdiv
    rw [Int.zero_ediv] at hediv
    omega

/-- A double without its fractional part, or the nearest number that a word of 64 bits counts. -/
def saturated (x : Float) : Nat :=
  if x.isFinite then min (whole x).toNat (2 ^ 64 - 1)
  else if 0.0 < x then 2 ^ 64 - 1
  else 0

theorem toNat_ofNatClamp (n : Nat) : (UInt64.ofNatClamp n).toNat = min n (2 ^ 64 - 1) := by
  rw [UInt64.ofNatClamp]
  split
  next h =>
    rw [UInt64.size] at h
    rw [UInt64.toNat_ofNatLT]
    omega
  next h =>
    rw [UInt64.size] at h
    rw [UInt64.toNat_ofNatLT, UInt64.size]
    omega

theorem toNat_toUInt64_eq (x : Float) : x.toUInt64.toNat = saturated x := by
  have hclamp : x.toUInt64.toNat =
      min (x.toModel.unpack.toInt 0 (UInt64.size - 1)).toNat (2 ^ 64 - 1) := toNat_ofNatClamp _
  rw [hclamp, saturated]
  by_cases hx : x.isFinite = true
  · rw [if_pos hx, toInt_eq_tdiv (canonical_unpack hx), ← value_eq hx, toNat_tdiv unitsPerOne_pos]
    rfl
  · have hzero : Canonical (0.0 : Float).toModel.unpack := canonical_unpack (by decide +kernel)
    have hx' : x.toModel.unpack.isFinite ≠ true := hx
    simp only [if_neg hx, lt_iff_compare]
    generalize (0.0 : Float).toModel.unpack = z at hzero ⊢
    generalize x.toModel.unpack = u at hx' ⊢
    cases u with
    | zero s => exact absurd rfl hx'
    | finite s m e hm => exact absurd rfl hx'
    | notANumber => cases hzero <;> rfl
    | infinity s => cases s <;> cases hzero <;> rfl

theorem toNat_toUInt64 {x : Float} (hx : isIntegral x = true) (h : whole x < 2 ^ 64) :
    x.toUInt64.toNat = (whole x).toNat := by
  rw [toNat_toUInt64_eq, saturated, if_pos (isIntegral_iff.mp hx).1]
  omega

end Conversion

section Span

variable {x y z : Float}

/-- Whether two whole numbers are closer than a third one can be told from their difference as a
double, although far apart it is not exact. -/
theorem abs_sub_lt_iff (hx : isIntegral x = true) (hy : isIntegral y = true)
    (hz : isIntegral z = true) (h : whole z ≤ 2 ^ 53) :
    (x - y).abs < z ↔ ((whole x - whole y).natAbs : Int) < whole z := by
  rcases Nat.lt_or_ge (whole x - whole y).natAbs (2 ^ 53) with hlt | hge
  · obtain ⟨hsub, hwhole⟩ := whole_sub hx hy hlt.le
    obtain ⟨habs, hwhole'⟩ := whole_abs hsub
    rw [lt_iff_whole_lt habs hz, hwhole', hwhole]
  · obtain ⟨hx, hvx⟩ := isIntegral_iff.mp hx
    obtain ⟨hy, hvy⟩ := isIntegral_iff.mp hy
    obtain ⟨hz, hvz⟩ := isIntegral_iff.mp hz
    have hmagnitude : magnitude (2 ^ 52) (1 : Nat) = 2 ^ 53 * unitsPerOne := by
      rw [magnitude_eq_mul, ← Nat.mul_assoc, ← Nat.pow_add]
    have hnot : ¬ (x - y).abs < z := by
      refine not_abs_sub_lt hx hy hz (j := (1 : Nat)) (by decide) ?_ ?_
      · rw [hvz, hmagnitude, Int.natCast_mul]
        exact Int.mul_le_mul_of_nonneg_right (by exact_mod_cast h) (Int.natCast_nonneg _)
      · rw [hvx, hvy, ← Int.sub_mul, Int.natAbs_mul, Int.natAbs_natCast, hmagnitude]
        exact Nat.mul_le_mul_right _ hge
    refine iff_of_false hnot ?_
    omega

end Span

section Gaps

theorem dvd_scaled {u : UnpackedFloat} (hu : Canonical u) {j : Nat}
    (h : 2 ^ (52 + j) * unitsPerOne ≤ (scaled u).natAbs) :
    ((2 ^ j * unitsPerOne : Nat) : Int) ∣ scaled u := by
  cases hu with
  | zero s => exact Int.dvd_zero _
  | @finite s m e hm hn he =>
    obtain ⟨k, -, hunits⟩ := exists_unitsPerOne_eq
    rw [natAbs_scaled, hunits, ← Nat.pow_add] at h
    rw [Int.natCast_dvd, natAbs_scaled, hunits, ← Nat.pow_add]
    have hlt : 2 ^ (52 + j + k) < 2 ^ (53 + (e + 1074).toNat) := by
      rw [Nat.pow_add 2 53]
      exact h.trans_lt (Nat.mul_lt_mul_of_pos_right hn.lt (Nat.two_pow_pos _))
    have hle : j + k ≤ (e + 1074).toNat := by
      have := (Nat.pow_lt_pow_iff_right (by decide)).mp hlt
      omega
    exact (Nat.pow_dvd_pow 2 hle).mul_left m

variable {x y : Float}

/-- Large values are whole, and larger ones multiples of a power of two. -/
theorem isIntegral_of_large {j : Nat} (hx : x.isFinite = true)
    (h : 2 ^ (52 + j) * unitsPerOne ≤ (value x).natAbs) :
    isIntegral x = true ∧ (2 ^ j : Int) ∣ whole x := by
  rw [value_eq hx] at h
  obtain ⟨n, hn⟩ := dvd_scaled (canonical_unpack hx) h
  rw [← value_eq hx, Int.natCast_mul, Int.natCast_pow, Int.mul_right_comm] at hn
  obtain ⟨hint, hwhole⟩ := isIntegral_of_value hx hn
  exact ⟨hint, n, hwhole⟩

/-- So large a double between two whole numbers is one. -/
theorem isIntegral_of_between {z : Float} (hx : isIntegral x = true) (hz : isIntegral z = true)
    (hlarge : 2 ^ 52 ≤ whole x ∨ whole z ≤ -2 ^ 52) (hxy : x < y) (hyz : y < z) :
    isIntegral y = true := by
  obtain ⟨hfx, hvx⟩ := isIntegral_iff.mp hx
  obtain ⟨hfz, hvz⟩ := isIntegral_iff.mp hz
  have hfinite := isFinite_of_lt_of_lt hfx hfz hxy hyz
  rw [lt_iff_value_lt hfx hfinite, hvx] at hxy
  rw [lt_iff_value_lt hfinite hfz, hvz] at hyz
  have hmul : 2 ^ (52 + 0) * unitsPerOne ≤ (value y).natAbs := by
    rw [← Int.ofNat_le, Nat.add_zero, Int.natCast_mul]
    rcases hlarge with h | h
    · have := Int.mul_le_mul_of_nonneg_right h (Int.natCast_nonneg unitsPerOne)
      generalize (unitsPerOne : Int) = u at this hxy ⊢
      omega
    · have := Int.mul_le_mul_of_nonneg_right h (Int.natCast_nonneg unitsPerOne)
      rw [Int.neg_mul] at this
      generalize (unitsPerOne : Int) = u at this hyz ⊢
      omega
  exact (isIntegral_of_large (j := 0) hfinite hmul).1

theorem two_dvd_whole (hx : isIntegral x = true) (h : 2 ^ 53 ≤ (whole x).natAbs) :
    (2 : Int) ∣ whole x := by
  obtain ⟨hfinite, hvx⟩ := isIntegral_iff.mp hx
  have hlarge := isIntegral_of_large (j := 1) hfinite (by
    rw [hvx, Int.natAbs_mul, Int.natAbs_natCast]
    exact Nat.mul_le_mul_right unitsPerOne h)
  exact hlarge.2

/-- Past 2⁵³ there are no two doubles for whole numbers next to each other. -/
theorem natAbs_whole_le_of_succ (hx : isIntegral x = true) (hy : isIntegral y = true)
    (h : whole y = whole x + 1) : (whole x).natAbs ≤ 2 ^ 53 ∧ (whole y).natAbs ≤ 2 ^ 53 := by
  have hx' := two_dvd_whole hx
  have hy' := two_dvd_whole hy
  omega

end Gaps

end Binary64

end DifferentialAnalyzer
