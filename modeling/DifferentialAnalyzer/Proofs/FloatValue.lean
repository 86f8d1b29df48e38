import DifferentialAnalyzer.Proofs.FloatOrder

/-! The values of finite doubles, in units of 2⁻¹⁰⁷⁴. A double is a significand and an exponent,
which packing keeps, and doubles are ordered as their values are. -/

namespace DifferentialAnalyzer

namespace Binary64

open Float.Model (Format UnpackedFloat)
open Float.Model.UnpackedFloat (pack unpack unpackExponent unpackMantissa unpackSign
  packComponents unpackMantissa_packComponents unpackExponent_packComponents)

/-- The value of a finite double in units. -/
def value (x : Float) : Int :=
  if isNegative x then -(units (rank x) : Int) else units (rank x)

/-- A significand with an exponent, in units. -/
def magnitude (m : Nat) (e : Int) : Nat :=
  m * 2 ^ (e + 1074).toNat

theorem magnitude_pos {m : Nat} (h : 0 < m) (e : Int) : 0 < magnitude m e :=
  Nat.mul_pos h (Nat.two_pow_pos _)

/-- The value in units, and zero for what is not finite. -/
def scaled : UnpackedFloat → Int
  | .finite s m e _ => s.apply (magnitude m e)
  | _ => 0

theorem natAbs_scaled (s : UnpackedFloat.Sign) {m : Nat} {e : Int} (hm : 0 < m) :
    (scaled (.finite s m e hm)).natAbs = magnitude m e := by
  cases s with
  | positive => exact Int.natAbs_natCast _
  | negative => rw [scaled, UnpackedFloat.Sign.apply, Int.natAbs_neg, Int.natAbs_natCast]

/-- All bits of the significand are in use, unless the exponent is the least. -/
structure Normal (m : Nat) (e : Int) : Prop where
  lt : m < 2 ^ 53
  least : -1074 ≤ e
  full : 2 ^ 52 ≤ m ∨ e = -1074

/-- What finite doubles unpack to. -/
inductive Canonical : UnpackedFloat → Prop
  | zero (s : UnpackedFloat.Sign) : Canonical (.zero s)
  | finite (s : UnpackedFloat.Sign) {m : Nat} {e : Int} (hm : 0 < m) (h : Normal m e)
    (he : e ≤ 971) : Canonical (.finite s m e hm)

section Unpacking

variable (b : BitVec Format.binary64.numBits)

theorem toNat_unpackMantissa : (unpackMantissa b).toNat = b.toNat % 2 ^ 52 := by
  simp [unpackMantissa]

theorem toNat_unpackExponent : (unpackExponent b).toNat = b.toNat / 2 ^ 52 % 2 ^ 11 := by
  simp [unpackExponent, Nat.shiftRight_eq_div_pow]

theorem ofBitVec_unpackSign : UnpackedFloat.Sign.ofBitVec (unpackSign b) =
    if 2 ^ 63 ≤ b.toNat then .negative else .positive := by
  have hlt : b.toNat < 2 ^ 64 := b.isLt
  have hsign : unpackSign b = 0#1 ↔ b.toNat < 2 ^ 63 := by
    rw [← BitVec.toNat_inj]
    simp [unpackSign, Nat.shiftRight_eq_div_pow]
    omega
  by_cases h : 2 ^ 63 ≤ b.toNat
  · rw [if_pos h, UnpackedFloat.Sign.ofBitVec, if_neg (hsign.not.mpr (Nat.not_lt.mpr h))]
  · rw [if_neg h, UnpackedFloat.Sign.ofBitVec, if_pos (hsign.mpr (Nat.not_le.mp h))]

theorem toNat_implicit (m : BitVec 52) : (1#1 ++ m).toNat = 2 ^ 52 + m.toNat := by
  rw [BitVec.toNat_append, ← Nat.shiftLeft_add_eq_or_of_lt m.isLt]
  rfl

/-- The bits without the sign count the magnitudes from zero on. -/
theorem unpack_cases (h : (unpack .binary64 b).isFinite = true) :
    (∃ s, unpack .binary64 b = .zero s ∧ b.toNat % 2 ^ 63 = 0) ∨
    ∃ m e hm,
      unpack .binary64 b = .finite (if 2 ^ 63 ≤ b.toNat then .negative else .positive) m e hm ∧
      Normal m e ∧ e ≤ 971 ∧ b.toNat % 2 ^ 63 = (e + 1074).toNat * 2 ^ 52 + m := by
  have hm := toNat_unpackMantissa b
  have he := toNat_unpackExponent b
  have hlt : b.toNat < 2 ^ 64 := b.isLt
  rw [← ofBitVec_unpackSign]
  unfold unpack at h ⊢
  by_cases hmax : unpackExponent b = -1#_
  · simp only [if_pos hmax] at h
    split at h <;> cases h
  · simp only [if_neg hmax]
    have hmax' : (unpackExponent b).toNat ≠ 2047 := fun hc => hmax (BitVec.eq_of_toNat_eq hc)
    by_cases hzero : unpackExponent b = 0#_
    · have hzero' : (unpackExponent b).toNat = 0 := congrArg BitVec.toNat hzero
      simp only [if_pos hzero]
      by_cases hz : unpackMantissa b = 0#_
      · have hz' : (unpackMantissa b).toNat = 0 := congrArg BitVec.toNat hz
        simp only [dif_pos hz]
        exact .inl ⟨_, rfl, by omega⟩
      · have hz' : (unpackMantissa b).toNat ≠ 0 := fun hc => hz (BitVec.eq_of_toNat_eq hc)
        simp only [dif_neg hz, hzero']
        refine .inr ⟨_, -1074, Nat.pos_of_ne_zero hz', rfl, ⟨?_, ?_, ?_⟩, ?_, ?_⟩ <;> omega
    · have hzero' : (unpackExponent b).toNat ≠ 0 := fun hc => hzero (BitVec.eq_of_toNat_eq hc)
      have hm' := toNat_implicit (unpackMantissa b)
      simp only [if_neg hzero]
      refine .inr ⟨_, (unpackExponent b).toNat - 1075, Nat.pos_of_ne_zero (by omega), rfl,
        ⟨?_, ?_, ?_⟩, ?_, ?_⟩ <;> omega

theorem units_eq {m : Nat} {e : Int} (h : Normal m e) :
    units ((e + 1074).toNat * 2 ^ 52 + m) = magnitude m e := by
  have hbinade : binade = 2 ^ 52 := rfl
  obtain ⟨hlt, hleast, hfull⟩ := h
  rcases Nat.lt_or_ge m (2 ^ 52) with hsmall | hfull'
  · have he : (e + 1074).toNat = 0 := by omega
    rw [magnitude, he, Nat.zero_mul, Nat.zero_add, units, significand, hbinade, if_pos hsmall,
      Nat.div_eq_of_lt hsmall]
    rfl
  · have hdiv : ((e + 1074).toNat * 2 ^ 52 + m) / 2 ^ 52 = (e + 1074).toNat + 1 := by omega
    have hmod : 2 ^ 52 + ((e + 1074).toNat * 2 ^ 52 + m) % 2 ^ 52 = m := by omega
    rw [units, significand, hbinade, hdiv, if_neg (by omega), hmod]
    rfl

end Unpacking

section Packing

theorem finite_congr (s : UnpackedFloat.Sign) {m n : Nat} {e f : Int} {hm : 0 < m} {hn : 0 < n}
    (h : m = n) (h' : e = f) : UnpackedFloat.finite s m e hm = .finite s n f hn := by
  subst h h'
  rfl

theorem ofBitVec_unpackSign_packComponents (s : UnpackedFloat.Sign) (e : BitVec 11)
    (m : BitVec 52) :
    UnpackedFloat.Sign.ofBitVec (unpackSign (packComponents .binary64 s e m)) = s := by
  simp only [unpackSign, packComponents, BitVec.extractLsb]
  rw [BitVec.extractLsb'_append_eq_of_le (by omega),
    BitVec.extractLsb'_append_eq_of_le (by omega)]
  cases s <;> rfl

/-- Packing loses nothing. -/
theorem unpack_pack {u : UnpackedFloat} (h : Canonical u) :
    unpack .binary64 (pack .binary64 u) = u := by
  cases h with
  | zero s => cases s <;> rfl
  | @finite s m e hm h he =>
    obtain ⟨hlt, hleast, hfull⟩ := h
    have hbias : (e + Format.binary64.exponentBias + (52 : Nat)).toNat = (e + 1075).toNat := by
      have : Format.binary64.exponentBias = 1023 := rfl
      omega
    have hbits : Format.binary64.mantissaBits = 53 := rfl
    have hlog : m.log2 + 1 = 53 ↔ 2 ^ 52 ≤ m := by
      have h1 := Nat.le_log2 (k := 52) hm.ne'
      have h2 := Nat.log2_lt (k := 53) hm.ne'
      omega
    unfold pack
    simp only [hbias, hbits, hlog]
    rw [if_neg (by omega)]
    split
    next hge =>
      have he : (BitVec.ofNat 11 (e + 1075).toNat).toNat = (e + 1075).toNat := by
        rw [BitVec.toNat_ofNat]
        omega
      have hm' : (BitVec.ofNat 52 m).toNat = m - 2 ^ 52 := by
        rw [BitVec.toNat_ofNat]
        omega
      have hmax : BitVec.ofNat 11 (e + 1075).toNat ≠ -1#11 := fun hc => by
        have : (e + 1075).toNat = 2047 := he.symm.trans (congrArg BitVec.toNat hc)
        omega
      have hzero : BitVec.ofNat 11 (e + 1075).toNat ≠ 0#11 := fun hc => by
        have : (e + 1075).toNat = 0 := he.symm.trans (congrArg BitVec.toNat hc)
        omega
      unfold unpack
      simp only [unpackMantissa_packComponents, unpackExponent_packComponents,
        ofBitVec_unpackSign_packComponents, if_neg hmax, if_neg hzero, toNat_implicit, hm', he]
      exact finite_congr s (by omega) (by omega)
    next hlt' =>
      have hm' : (BitVec.ofNat 52 m).toNat = m := by
        rw [BitVec.toNat_ofNat]
        omega
      have hzero : BitVec.ofNat 52 m ≠ 0#52 := fun hc => by
        have : m = 0 := hm'.symm.trans (congrArg BitVec.toNat hc)
        omega
      have hmax : (0#11 : BitVec 11) ≠ -1#11 := by decide
      have hexponent : ((0#11 : BitVec 11).toNat : Int) -
          (Format.binary64.exponentBias + (52 : Nat)) + 1 = -1074 := rfl
      unfold unpack
      simp only [unpackMantissa_packComponents, unpackExponent_packComponents,
        ofBitVec_unpackSign_packComponents, if_neg hmax, if_true, dif_neg hzero, hm']
      exact finite_congr s rfl (by omega)

end Packing

section Value

variable {x y : Float}

theorem canonical_unpack (h : x.isFinite = true) : Canonical x.toModel.unpack := by
  rcases unpack_cases x.toModel.toBits.toBitVec h with ⟨s, hs, -⟩ | ⟨m, e, hm, hu, hn, he, -⟩
  · rw [Float.Model.unpack, hs]
    exact .zero s
  · rw [Float.Model.unpack, hu]
    exact .finite _ hm hn he

theorem value_eq (h : x.isFinite = true) : value x = scaled x.toModel.unpack := by
  have hneg : isNegative x = decide (2 ^ 63 ≤ x.toModel.toBits.toBitVec.toNat) := rfl
  have hrank : rank x = x.toModel.toBits.toBitVec.toNat % 2 ^ 63 := rfl
  rcases unpack_cases x.toModel.toBits.toBitVec h with ⟨s, hs, hz⟩ | ⟨m, e, hm, hu, hn, -, hr⟩
  · have hunits : units 0 = 0 := rfl
    rw [Float.Model.unpack, hs, value, hrank, hz, hunits]
    simp [scaled]
  · rw [Float.Model.unpack, hu, value, hneg, hrank, hr, units_eq hn, scaled]
    by_cases hhalf : 2 ^ 63 ≤ x.toModel.toBits.toBitVec.toNat
    · simp only [if_pos hhalf, decide_eq_true hhalf, UnpackedFloat.Sign.apply, if_true]
    · simp only [if_neg hhalf, decide_eq_false hhalf, UnpackedFloat.Sign.apply,
        Bool.false_eq_true, if_false]

theorem Canonical.isFinite {u : UnpackedFloat} (h : Canonical u) : u.isFinite = true := by
  cases h <;> rfl

/-- The value of the finite result of an operation. -/
theorem value_of_unpack {u : UnpackedFloat} (hu : Canonical u)
    (h : x.toModel.unpack = unpack .binary64 (pack .binary64 u)) :
    x.isFinite = true ∧ value x = scaled u := by
  rw [unpack_pack hu] at h
  have hx : x.isFinite = true := by
    change x.toModel.unpack.isFinite = true
    rw [h, hu.isFinite]
  exact ⟨hx, by rw [value_eq hx, h]⟩

theorem Canonical.abs {u : UnpackedFloat} (h : Canonical u) :
    Canonical u.abs ∧ scaled u.abs = (scaled u).natAbs := by
  cases h with
  | zero s => exact ⟨.zero _, rfl⟩
  | finite s hm h he =>
    refine ⟨.finite _ hm h he, ?_⟩
    cases s <;> simp [UnpackedFloat.abs, scaled, UnpackedFloat.Sign.apply]

theorem value_abs (h : x.isFinite = true) :
    x.abs.isFinite = true ∧ value x.abs = (value x).natAbs := by
  obtain ⟨hu, heq⟩ := (canonical_unpack h).abs
  rw [value_eq h, ← heq]
  exact value_of_unpack hu rfl

end Value

section Order

theorem magnitude_lt {m n : Nat} {e f : Int} (hm : Normal m e) (hn : Normal n f) (h : e < f) :
    magnitude m e < magnitude n f := by
  have hleast := hm.least
  have hfull : 2 ^ 52 ≤ n := hn.full.resolve_right (by omega)
  have hexp : 2 ^ ((e + 1074).toNat + 1) ≤ 2 ^ (f + 1074).toNat :=
    Nat.pow_le_pow_right (by decide) (by omega)
  calc magnitude m e < 2 ^ 53 * 2 ^ (e + 1074).toNat :=
        Nat.mul_lt_mul_of_pos_right hm.lt (Nat.two_pow_pos _)
    _ = 2 ^ 52 * 2 ^ ((e + 1074).toNat + 1) := by rw [Nat.pow_succ']; omega
    _ ≤ magnitude n f := Nat.mul_le_mul hfull hexp

theorem compare_magnitude {m n : Nat} {e f : Int} (hm : Normal m e) (hn : Normal n f) :
    (compare e f).then (compare m n) = compare (magnitude m e) (magnitude n f) := by
  rcases lt_trichotomy e f with h | rfl | h
  · rw [compare_lt_iff_lt.mpr h, compare_lt_iff_lt.mpr (magnitude_lt hm hn h)]
    rfl
  · have hmono : StrictMono fun m => magnitude m e := fun a b h =>
      Nat.mul_lt_mul_of_pos_right h (Nat.two_pow_pos _)
    rw [compare_eq_iff_eq.mpr rfl, ← cmp_eq_compare m, ← hmono.cmp_map_eq, cmp_eq_compare]
    rfl
  · rw [compare_gt_iff_gt.mpr h, compare_gt_iff_gt.mpr (magnitude_lt hn hm h)]
    rfl

theorem compare_scaled {u v : UnpackedFloat} (hu : Canonical u) (hv : Canonical v) :
    u.compare v = some (compare (scaled u) (scaled v)) := by
  have hcast (a b : Nat) : compare (a : Int) b = compare a b := by
    rw [← cmp_eq_compare a, ← cmp_eq_compare (a : Int), Nat.strictMono_cast.cmp_map_eq]
  have hneg (a b : Int) : compare (-a) (-b) = (compare a b).swap := by
    have hanti : StrictAnti fun a : Int => -a := fun _ _ h => Int.neg_lt_neg h
    rw [← cmp_eq_compare a, ← cmp_eq_compare (-a), cmp_swap, hanti.cmp_map_eq]
  cases hu with
  | zero s =>
    cases hv with
    | zero t => rfl
    | @finite t n f hn h =>
      have := magnitude_pos hn f
      cases t <;> simp only [UnpackedFloat.compare, scaled, UnpackedFloat.Sign.apply]
      · rw [compare_gt_iff_gt.mpr (by omega)]
      · rw [compare_lt_iff_lt.mpr (by omega)]
  | @finite s m e hm h =>
    have := magnitude_pos hm e
    cases hv with
    | zero t =>
      cases s <;> simp only [UnpackedFloat.compare, scaled, UnpackedFloat.Sign.apply]
      · rw [compare_lt_iff_lt.mpr (by omega)]
      · rw [compare_gt_iff_gt.mpr (by omega)]
    | @finite t n f hn h' =>
      have := magnitude_pos hn f
      cases s <;> cases t <;>
        simp only [UnpackedFloat.compare, scaled, UnpackedFloat.Sign.apply]
      · rw [hneg, hcast, compare_magnitude h h']
      · rw [compare_lt_iff_lt.mpr (by omega)]
      · rw [compare_gt_iff_gt.mpr (by omega)]
      · rw [hcast, compare_magnitude h h']

variable {x y : Float}

theorem compare_value (hx : x.isFinite = true) (hy : y.isFinite = true) :
    x.toModel.unpack.compare y.toModel.unpack = some (compare (value x) (value y)) := by
  rw [value_eq hx, value_eq hy]
  exact compare_scaled (canonical_unpack hx) (canonical_unpack hy)

/-- Finite doubles are ordered as their values are. -/
theorem lt_iff_value_lt (hx : x.isFinite = true) (hy : y.isFinite = true) :
    x < y ↔ value x < value y := by
  rw [lt_iff_compare, compare_value hx hy, Option.some.injEq, compare_lt_iff_lt]

theorem beq_iff_compare :
    (x == y) = true ↔ x.toModel.unpack.compare y.toModel.unpack = some .eq := by
  change (x.toModel.unpack.compare y.toModel.unpack == some .eq) = true ↔ _
  exact beq_iff_eq

theorem beq_iff_value_eq (hx : x.isFinite = true) (hy : y.isFinite = true) :
    (x == y) = true ↔ value x = value y := by
  rw [beq_iff_compare, compare_value hx hy, Option.some.injEq, compare_eq_iff_eq]

theorem isFinite_of_beq (hy : y.isFinite = true) (h : (x == y) = true) : x.isFinite = true := by
  rw [beq_iff_compare] at h
  change x.toModel.unpack.isFinite = true
  have hv := canonical_unpack hy
  generalize y.toModel.unpack = v at h hv
  cases hu : x.toModel.unpack with
  | zero s => rfl
  | finite s m e hm => rfl
  | notANumber =>
    rw [hu] at h
    cases h
  | infinity s =>
    rw [hu] at h
    cases s <;> cases hv <;> cases h

theorem isFinite_of_lt_of_lt {z : Float} (hx : x.isFinite = true) (hz : z.isFinite = true)
    (hxy : x < y) (hyz : y < z) : y.isFinite = true := by
  rw [lt_iff_compare] at hxy hyz
  change y.toModel.unpack.isFinite = true
  have hu := canonical_unpack hx
  have hw := canonical_unpack hz
  generalize x.toModel.unpack = u at hxy hu
  generalize z.toModel.unpack = w at hyz hw
  cases hv : y.toModel.unpack with
  | zero s => rfl
  | finite s m e hm => rfl
  | notANumber =>
    rw [hv] at hyz
    cases hyz
  | infinity s =>
    rw [hv] at hxy hyz
    cases s with
    | positive => cases hw <;> cases hyz
    | negative => cases hu <;> cases hxy

end Order

end Binary64

end DifferentialAnalyzer
