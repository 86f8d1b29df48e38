import DifferentialAnalyzer.Proofs.FloatValue

/-! Sums and differences that are the value of a double are exact, and a difference that is not
stays above every power of two that the exact one is above. -/

namespace DifferentialAnalyzer

namespace Binary64

open Float.Model (Format UnpackedFloat totalExponent)
open Float.Model.UnpackedFloat (ExtendedMantissa Accuracy decreaseExponent shiftToExponent
  shiftToTargetExponent roundWithAccuracy pack unpack packedInfinity)

section Shifts

variable {m n : Nat} {e f : Int}

theorem log2_mul_two_pow (h : n ≠ 0) (k : Nat) : (n * 2 ^ k).log2 = n.log2 + k := by
  have hpow : 0 < 2 ^ k := Nat.two_pow_pos k
  refine (Nat.log2_eq_iff (Nat.mul_ne_zero h hpow.ne')).mpr ⟨?_, ?_⟩
  · rw [Nat.pow_add]
    exact Nat.mul_le_mul_right _ (Nat.log2_self_le h)
  · rw [Nat.add_right_comm, Nat.pow_add]
    exact Nat.mul_lt_mul_of_pos_right Nat.lt_log2_self hpow

theorem targetExponent_eq (t : Int) : Format.binary64.targetExponent t = max (t - 53) (-1074) :=
  rfl

theorem Normal.targetExponent_eq (h : Normal m e) (hm : 0 < m) (k : Nat) :
    Format.binary64.targetExponent (totalExponent (m * 2 ^ k) (e - k)) = e := by
  have h1 := Nat.le_log2 (k := 52) hm.ne'
  have h2 := (Nat.log2_lt (k := 53) hm.ne').mpr h.lt
  have hlog := log2_mul_two_pow hm.ne' k
  have hleast := h.least
  rw [Binary64.targetExponent_eq, totalExponent, hlog]
  rcases h.full with hfull | he <;> omega

theorem shiftRight_mantissa (em : ExtendedMantissa) (k : Nat) :
    (em >>> k).mantissa = em.mantissa / 2 ^ k := by
  change (k.repeat ExtendedMantissa.shiftRightOne em).mantissa = _
  induction k with
  | zero =>
    rw [Nat.pow_zero, Nat.div_one]
    rfl
  | succ k ih =>
    rw [Nat.repeat, ExtendedMantissa.shiftRightOne, ih, Nat.div_div_eq_div_mul, Nat.pow_succ]

theorem shiftRight_exact (m k : Nat) :
    (⟨m * 2 ^ k, false, false⟩ : ExtendedMantissa) >>> k = ⟨m, false, false⟩ := by
  change k.repeat ExtendedMantissa.shiftRightOne ⟨m * 2 ^ k, false, false⟩ = _
  induction k generalizing m with
  | zero =>
    rw [Nat.pow_zero, Nat.mul_one]
    rfl
  | succ k ih =>
    rw [Nat.pow_succ', ← Nat.mul_assoc, Nat.repeat, ih]
    simp [ExtendedMantissa.shiftRightOne]

theorem roundedMantissa_bounds (em : ExtendedMantissa) :
    em.mantissa ≤ em.roundedMantissa ∧ em.roundedMantissa ≤ em.mantissa + 1 := by
  obtain ⟨m, round, sticky⟩ := em
  cases round <;> cases sticky <;>
    simp only [ExtendedMantissa.roundedMantissa, ExtendedMantissa.accuracy,
      Accuracy.roundToNearestEven] <;> omega

theorem shiftToTargetExponent_exact (h : Normal m e) (hm : 0 < m) (k : Nat) :
    shiftToTargetExponent .binary64 (m * 2 ^ k) (e - k) .exact = (⟨m, false, false⟩, e) := by
  have hk : (e - (e - k)).toNat = k := by omega
  rw [shiftToTargetExponent, h.targetExponent_eq hm k, shiftToExponent]
  simp only [hk, ExtendedMantissa.ofMantissaAndAccuracy, shiftRight_exact, Int.sub_add_cancel]

theorem shiftToTargetExponent_self (h : Normal m e) (hm : 0 < m) :
    shiftToTargetExponent .binary64 m e .exact = (⟨m, false, false⟩, e) := by
  have := shiftToTargetExponent_exact h hm 0
  rwa [Nat.pow_zero, Nat.mul_one, Int.ofNat_zero, Int.sub_zero] at this

end Shifts

section Exact

variable {m n : Nat} {e f : Int}

theorem roundWithAccuracy_exact (s : UnpackedFloat.Sign) (h : Normal m e) (hm : 0 < m) (k : Nat) :
    roundWithAccuracy .binary64 s (m * 2 ^ k) (e - k) .exact = .finite s m e hm := by
  simp only [roundWithAccuracy, shiftToTargetExponent_exact h hm k,
    ExtendedMantissa.roundedMantissa, ExtendedMantissa.accuracy, Accuracy.roundToNearestEven,
    shiftToTargetExponent_self h hm, dif_neg hm.ne']

theorem magnitude_ne_zero (h : magnitude n f = magnitude m e) (hm : 0 < m) : n ≠ 0 := by
  rintro rfl
  have := magnitude_pos hm e
  rw [← h, magnitude, Nat.zero_mul] at this
  exact Nat.lt_irrefl 0 this

/-- The magnitude alone decides what is rounded to. -/
theorem round_exact (s : UnpackedFloat.Sign) (h : Normal m e) (hm : 0 < m) (hf : -1074 ≤ f)
    (heq : magnitude n f = magnitude m e) :
    UnpackedFloat.round .binary64 s n f = .finite s m e hm := by
  have hn := magnitude_ne_zero heq hm
  have hleast := h.least
  have hlog := congrArg Nat.log2 heq
  rw [magnitude, magnitude, log2_mul_two_pow hn, log2_mul_two_pow hm.ne'] at hlog
  have htarget : Format.binary64.targetExponent (totalExponent n f) = e := by
    rw [← h.targetExponent_eq hm 0]
    simp only [totalExponent, Nat.pow_zero, Nat.mul_one]
    congr 1
    omega
  rw [magnitude, magnitude] at heq
  simp only [UnpackedFloat.round, htarget, decreaseExponent, Nat.shiftLeft_eq]
  rcases le_total e f with hle | hle
  · have hshift : (f + 1074).toNat = (f - e).toNat + (e + 1074).toNat := by omega
    have hm' : n * 2 ^ (f - e).toNat = m * 2 ^ 0 := by
      rw [hshift, Nat.pow_add, ← Nat.mul_assoc] at heq
      rw [Nat.eq_of_mul_eq_mul_right (Nat.two_pow_pos _) heq, Nat.pow_zero, Nat.mul_one]
    have he : f - ((f - e).toNat : Int) = e - (0 : Nat) := by omega
    rw [hm', he, roundWithAccuracy_exact s h hm]
  · have hshift : (e + 1074).toNat = (e - f).toNat + (f + 1074).toNat := by omega
    have hn' : n * 2 ^ (f - e).toNat = m * 2 ^ (e - f).toNat := by
      have hzero : (f - e).toNat = 0 := by omega
      rw [hshift, Nat.pow_add, ← Nat.mul_assoc] at heq
      rw [hzero, Nat.pow_zero, Nat.mul_one, Nat.eq_of_mul_eq_mul_right (Nat.two_pow_pos _) heq]
    have he : f - ((f - e).toNat : Int) = e - ((e - f).toNat : Nat) := by omega
    rw [hn', he, roundWithAccuracy_exact s h hm]

theorem normalize_eq_round {n : Int} (hn : n ≠ 0) (z : UnpackedFloat.Sign) :
    UnpackedFloat.normalize .binary64 n e z =
      .round .binary64 (if n < 0 then .negative else .positive) n.natAbs e := by
  unfold UnpackedFloat.normalize
  rcases Int.lt_or_gt_of_ne hn with h | h
  · have habs : (-n).toNat = n.natAbs := by omega
    rw [compare_lt_iff_lt.mpr h, if_pos h, ← habs]
  · have habs : n.toNat = n.natAbs := by omega
    rw [compare_gt_iff_gt.mpr h, if_neg (Int.not_lt.mpr h.le), ← habs]

/-- Normalizing a value that a double has gives it. -/
theorem normalize_exact {w : UnpackedFloat} (hw : Canonical w) {n : Int} (he : -1074 ≤ e)
    (h : n * 2 ^ (e + 1074).toNat = scaled w) (z : UnpackedFloat.Sign) :
    Canonical (.normalize .binary64 n e z) ∧ scaled (.normalize .binary64 n e z) = scaled w := by
  have hpow : (0 : Int) < 2 ^ (e + 1074).toNat := by positivity
  cases hw with
  | zero s =>
    obtain rfl : n = 0 := (mul_eq_zero.mp h).resolve_right hpow.ne'
    exact ⟨.zero z, rfl⟩
  | @finite s m f hm hw hf =>
    have hmagnitude := magnitude_pos hm f
    have hnatAbs : magnitude n.natAbs e = magnitude m f := by
      rw [← natAbs_scaled s hm, ← h, Int.natAbs_mul, Int.natAbs_pow]
      rfl
    have hn : n ≠ 0 := Int.natAbs_ne_zero.mp (magnitude_ne_zero hnatAbs hm)
    have hs : (if n < 0 then .negative else .positive) = s := by
      cases s with
      | positive =>
        have : 0 < n := pos_of_mul_pos_left (h ▸ Int.natCast_pos.mpr hmagnitude) hpow.le
        rw [if_neg (Int.not_lt.mpr this.le)]
      | negative =>
        have : n < 0 := neg_of_mul_neg_left
          (h ▸ Int.neg_neg_of_pos (Int.natCast_pos.mpr hmagnitude)) hpow.le
        rw [if_pos this]
    rw [normalize_eq_round hn, hs, round_exact s hw hm he hnatAbs]
    exact ⟨.finite s hm hw hf, rfl⟩

theorem aligned (s : UnpackedFloat.Sign) (m : Nat) (hf : -1074 ≤ f) (h : f ≤ e) :
    s.apply (m <<< (e - f).toNat : Nat) * 2 ^ (f + 1074).toNat = s.apply (magnitude m e) := by
  have hshift : (e + 1074).toNat = (e - f).toNat + (f + 1074).toNat := by omega
  have hmul : (m <<< (e - f).toNat : Nat) * 2 ^ (f + 1074).toNat = magnitude m e := by
    rw [magnitude, hshift, Nat.shiftLeft_eq, Nat.pow_add, ← Nat.mul_assoc]
  have hcast : ((m <<< (e - f).toNat : Nat) : Int) * 2 ^ (f + 1074).toNat = magnitude m e := by
    exact_mod_cast hmul
  cases s <;> simp only [UnpackedFloat.Sign.apply, Int.neg_mul, hcast]

theorem sub_eq_add_neg (u v : UnpackedFloat) :
    UnpackedFloat.sub .binary64 u v = UnpackedFloat.add .binary64 u v.neg := by
  have happly (s : UnpackedFloat.Sign) (n : Int) : (-s).apply n = -s.apply n := by
    cases s with
    | negative => exact (Int.neg_neg n).symm
    | positive => rfl
  cases u <;> cases v <;> simp only [UnpackedFloat.sub, UnpackedFloat.add, UnpackedFloat.neg,
    happly, Int.sub_eq_add_neg]

theorem Canonical.neg {u : UnpackedFloat} (h : Canonical u) :
    Canonical u.neg ∧ scaled u.neg = -scaled u := by
  cases h with
  | zero s => exact ⟨.zero _, rfl⟩
  | finite s hm h he =>
    refine ⟨.finite _ hm h he, ?_⟩
    cases s with
    | negative => exact (Int.neg_neg _).symm
    | positive => rfl

/-- The two significands over the smaller exponent. -/
theorem Canonical.add_cases {u v : UnpackedFloat} (hu : Canonical u) (hv : Canonical v) :
    Canonical (.add .binary64 u v) ∧ scaled (.add .binary64 u v) = scaled u + scaled v ∨
    ∃ n e, -1074 ≤ e ∧ n * 2 ^ (e + 1074).toNat = scaled u + scaled v ∧
      UnpackedFloat.add .binary64 u v = .normalize .binary64 n e .positive := by
  cases hu with
  | zero s =>
    cases hv with
    | zero t => cases s <;> cases t <;> exact .inl ⟨.zero _, rfl⟩
    | finite t hn hv hf => exact .inl ⟨.finite t hn hv hf, (Int.zero_add _).symm⟩
  | @finite s m e hm hu he =>
    cases hv with
    | zero t => exact .inl ⟨.finite s hm hu he, (Int.add_zero _).symm⟩
    | @finite t n f hn hv hf =>
      have hleast : -1074 ≤ min e f := Int.le_min.mpr ⟨hu.least, hv.least⟩
      refine .inr ⟨_, min e f, hleast, ?_, rfl⟩
      rw [Int.add_mul, aligned s m hleast (min_le_left e f),
        aligned t n hleast (min_le_right e f), scaled, scaled]

/-- A sum that is the value of a double is exact. -/
theorem Canonical.add {u v w : UnpackedFloat} (hu : Canonical u) (hv : Canonical v)
    (hw : Canonical w) (h : scaled u + scaled v = scaled w) :
    Canonical (.add .binary64 u v) ∧ scaled (.add .binary64 u v) = scaled w := by
  rcases hu.add_cases hv with hexact | ⟨n, e, he, hn, hadd⟩
  · rwa [h] at hexact
  · rw [hadd]
    exact normalize_exact hw he (hn.trans h) _

/-- A difference that is the value of a double is exact. -/
theorem Canonical.sub {u v w : UnpackedFloat} (hu : Canonical u) (hv : Canonical v)
    (hw : Canonical w) (h : scaled u - scaled v = scaled w) :
    Canonical (.sub .binary64 u v) ∧ scaled (.sub .binary64 u v) = scaled w := by
  obtain ⟨hneg, heq⟩ := hv.neg
  rw [sub_eq_add_neg]
  exact hu.add hneg hw (by rw [heq, ← h, Int.sub_eq_add_neg])

end Exact

section Large

variable {n : Nat} {e j : Int}

theorem roundWithAccuracy_of_shift (s : UnpackedFloat.Sign) {em : ExtendedMantissa} {t : Int}
    (h : shiftToTargetExponent .binary64 n e .exact = (em, t)) (ht : -1074 ≤ t)
    (hlow : 2 ^ 52 ≤ em.roundedMantissa) (hhigh : em.roundedMantissa ≤ 2 ^ 53) :
    ∃ m f hm, roundWithAccuracy .binary64 s n e .exact = .finite s m f hm ∧ Normal m f ∧
      2 ^ 52 ≤ m ∧ t ≤ f := by
  rcases hhigh.lt_or_eq with hlt | heq
  · have hpos : 0 < em.roundedMantissa := Nat.lt_of_lt_of_le (by decide) hlow
    have hnormal : Normal em.roundedMantissa t := ⟨hlt, ht, .inl hlow⟩
    refine ⟨_, t, hpos, ?_, hnormal, hlow, le_rfl⟩
    simp only [roundWithAccuracy, h, shiftToTargetExponent_self hnormal hpos, dif_neg hpos.ne']
  · -- Rounding up has taken one more bit, and shifting it out loses nothing.
    have hnormal : Normal (2 ^ 52) (t + 1) := ⟨by decide, by omega, .inl le_rfl⟩
    have hlast := shiftToTargetExponent_exact hnormal (by decide) 1
    rw [Int.natCast_one, Int.add_sub_cancel, ← Nat.pow_add, ← heq] at hlast
    refine ⟨2 ^ 52, t + 1, by decide, ?_, hnormal, le_rfl, by omega⟩
    simp only [roundWithAccuracy, h, hlast]
    exact dif_neg (by decide)

theorem roundWithAccuracy_full (s : UnpackedFloat.Sign) (hn : 52 ≤ n.log2) (hj : -1074 ≤ j)
    (h : j + 52 ≤ n.log2 + e) :
    ∃ m f hm, roundWithAccuracy .binary64 s n e .exact = .finite s m f hm ∧ Normal m f ∧
      2 ^ 52 ≤ m ∧ j ≤ f := by
  have hn0 : n ≠ 0 := fun h => by
    rw [h] at hn
    exact absurd hn (by decide)
  obtain ⟨k, hk⟩ := Nat.exists_eq_add_of_le hn
  obtain ⟨t, ht⟩ : ∃ t : Int, e + k = t := ⟨_, rfl⟩
  have htarget : Format.binary64.targetExponent (totalExponent n e) = t := by
    rw [targetExponent_eq, totalExponent]
    omega
  have hshift : (t - e).toNat = k := by omega
  have hfirst : shiftToTargetExponent .binary64 n e .exact =
      ((⟨n, false, false⟩ : ExtendedMantissa) >>> k, t) := by
    rw [shiftToTargetExponent, htarget, shiftToExponent]
    simp only [hshift, ExtendedMantissa.ofMantissaAndAccuracy, ht]
  have hlow : 2 ^ 52 ≤ n / 2 ^ k := by
    rw [Nat.le_div_iff_mul_le (Nat.two_pow_pos k), ← Nat.pow_add, ← hk]
    exact Nat.log2_self_le hn0
  have hhigh : n / 2 ^ k < 2 ^ 53 := by
    rw [Nat.div_lt_iff_lt_mul (Nat.two_pow_pos k), ← Nat.pow_add]
    have := Nat.lt_log2_self (n := n)
    rwa [hk, Nat.add_right_comm] at this
  obtain ⟨hle, hge⟩ := roundedMantissa_bounds ((⟨n, false, false⟩ : ExtendedMantissa) >>> k)
  rw [shiftRight_mantissa] at hle hge
  obtain ⟨m, f, hm, heq, hnormal, hfull, hf⟩ := roundWithAccuracy_of_shift s hfirst (by omega)
    (hlow.trans hle) (hge.trans hhigh)
  exact ⟨m, f, hm, heq, hnormal, hfull, by omega⟩

/-- What is not below a power of two is not rounded to less. -/
theorem normalize_large {n : Int} (he : -1074 ≤ e) (hj : -1074 ≤ j)
    (h : magnitude (2 ^ 52) j ≤ magnitude n.natAbs e) (z : UnpackedFloat.Sign) :
    ∃ s m f hm, UnpackedFloat.normalize .binary64 n e z = .finite s m f hm ∧ Normal m f ∧
      magnitude (2 ^ 52) j ≤ magnitude m f := by
  have hn : n.natAbs ≠ 0 := fun h0 => by
    have := (magnitude_pos (by decide) j).trans_le h
    rw [h0, magnitude, Nat.zero_mul] at this
    exact Nat.lt_irrefl 0 this
  have hlog : 52 + (j + 1074).toNat ≤ n.natAbs.log2 + (e + 1074).toNat := by
    rw [← log2_mul_two_pow hn, Nat.le_log2 (Nat.mul_ne_zero hn (Nat.two_pow_pos _).ne'),
      Nat.pow_add]
    exact h
  have hround : ∃ m f hm, UnpackedFloat.round .binary64 (if n < 0 then .negative else .positive)
      n.natAbs e = .finite (if n < 0 then .negative else .positive) m f hm ∧ Normal m f ∧
      2 ^ 52 ≤ m ∧ j ≤ f := by
    obtain ⟨k, hk⟩ : ∃ k, k = (e - Format.binary64.targetExponent
      (totalExponent n.natAbs e)).toNat := ⟨_, rfl⟩
    simp only [UnpackedFloat.round, decreaseExponent, Nat.shiftLeft_eq, ← hk]
    rw [targetExponent_eq, totalExponent] at hk
    have hlog' := log2_mul_two_pow hn k
    exact roundWithAccuracy_full _ (by omega) hj (by omega)
  obtain ⟨m, f, hm, heq, hnormal, hfull, hle⟩ := hround
  rw [normalize_eq_round (Int.natAbs_ne_zero.mp hn)]
  refine ⟨_, m, f, hm, heq, hnormal, Nat.mul_le_mul hfull ?_⟩
  exact Nat.pow_le_pow_right (by decide) (by omega)

variable {x y z : Float}

theorem unpack_pack_of_large (s : UnpackedFloat.Sign) {m : Nat} (hm : 0 < m) (h : 971 < e) :
    unpack .binary64 (pack .binary64 (.finite s m e hm)) = .infinity s := by
  have hbias : 2 ^ 11 ≤ (e + Format.binary64.exponentBias + (52 : Nat)).toNat + 1 := by
    have : Format.binary64.exponentBias = 1023 := rfl
    omega
  have hpack : pack .binary64 (.finite s m e hm) = packedInfinity .binary64 s := by
    unfold pack
    exact if_pos hbias
  rw [hpack]
  cases s <;> rfl

theorem not_abs_lt_of_infinity (hz : z.isFinite = true) {s : UnpackedFloat.Sign}
    (h : x.toModel.unpack = .infinity s) : ¬ x.abs < z := by
  have habs : x.abs.toModel.unpack = .infinity .positive := by
    change unpack .binary64 (pack .binary64 x.toModel.unpack.abs) = _
    rw [h, UnpackedFloat.abs]
    rfl
  have hcompare {u : UnpackedFloat} (hu : Canonical u) :
      UnpackedFloat.compare (.infinity .positive) u = some .gt := by
    cases hu <;> rfl
  rw [lt_iff_compare, habs, hcompare (canonical_unpack hz)]
  decide

theorem not_abs_lt_of_large (hz : z.isFinite = true) {u : UnpackedFloat} (hu : Canonical u)
    (h : x.toModel.unpack = unpack .binary64 (pack .binary64 u))
    (hle : value z ≤ (scaled u).natAbs) : ¬ x.abs < z := by
  obtain ⟨hfinite, hvalue⟩ := value_of_unpack hu h
  obtain ⟨hfinite', hvalue'⟩ := value_abs hfinite
  rw [lt_iff_value_lt hfinite' hz, hvalue', hvalue]
  exact Int.not_lt.mpr hle

/-- A difference that is not below a power of two is not rounded below it. -/
theorem not_abs_sub_lt (hx : x.isFinite = true) (hy : y.isFinite = true) (hz : z.isFinite = true)
    (hj : -1074 ≤ j) (hle : value z ≤ magnitude (2 ^ 52) j)
    (h : magnitude (2 ^ 52) j ≤ (value x - value y).natAbs) : ¬ (x - y).abs < z := by
  have hsub : (x - y).toModel.unpack = unpack .binary64 (pack .binary64
      (.sub .binary64 x.toModel.unpack y.toModel.unpack)) := rfl
  obtain ⟨hneg, heq⟩ := (canonical_unpack hy).neg
  rw [value_eq hx, value_eq hy, Int.sub_eq_add_neg, ← heq] at h
  rw [sub_eq_add_neg] at hsub
  rcases (canonical_unpack hx).add_cases hneg with ⟨hu, hscaled⟩ | ⟨n, e, he, hn, hadd⟩
  · rw [← hscaled] at h
    exact not_abs_lt_of_large hz hu hsub (hle.trans (Int.ofNat_le.mpr h))
  · rw [← hn, Int.natAbs_mul, Int.natAbs_pow] at h
    obtain ⟨s, m, f, hm, hfinite, hnormal, hlarge⟩ := normalize_large he hj h .positive
    rw [hadd, hfinite] at hsub
    rcases lt_or_ge 971 f with hf | hf
    · rw [unpack_pack_of_large s hm hf] at hsub
      exact not_abs_lt_of_infinity hz hsub
    · rw [← natAbs_scaled s hm] at hlarge
      exact not_abs_lt_of_large hz (.finite s hm hnormal hf) hsub
        (hle.trans (Int.ofNat_le.mpr hlarge))

end Large

end Binary64

end DifferentialAnalyzer
