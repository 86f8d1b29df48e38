import Mathlib
import DifferentialAnalyzer.Arithmetic

/-! Results of arithmetic that are numbers, and the order of numbers: of two of them one is at most
the other, or else greater. -/

namespace DifferentialAnalyzer

namespace Binary64

open Float.Model (Format UnpackedFloat)
open Float.Model.UnpackedFloat (pack unpack unpackExponent unpackMantissa packedInfinity packedZero
  packedNaN roundWithAccuracy)

theorem isNaN_unpack_iff (b : BitVec Format.binary64.numBits) :
    (unpack .binary64 b).isNaN = true ↔ unpackExponent b = 2047#11 ∧ unpackMantissa b ≠ 0#52 := by
  unfold unpack
  by_cases he : unpackExponent b = 2047#11
  · by_cases hm : unpackMantissa b = 0#52 <;> simp [he, hm, UnpackedFloat.isNaN]
  · by_cases hz : unpackExponent b = 0#11
    · by_cases hm : unpackMantissa b = 0#52 <;> simp [hz, hm, UnpackedFloat.isNaN]
    · simp [he, hz, UnpackedFloat.isNaN]

theorem isNaN_unpack_pack (u : UnpackedFloat) :
    (unpack .binary64 (pack .binary64 u)).isNaN = u.isNaN := by
  rw [Bool.eq_iff_iff, isNaN_unpack_iff]
  fun_cases pack .binary64 u with
  | case1 => simp [packedNaN, UnpackedFloat.isNaN]
  | case2 s => simp [packedInfinity, UnpackedFloat.isNaN]
  | case3 s => simp [packedZero, UnpackedFloat.isNaN]
  | case4 s m e hm biased h => simp [packedInfinity, UnpackedFloat.isNaN]
  | case5 s m e hm bits biased h hn =>
    have hne : BitVec.ofNat 11 biased ≠ 2047#11 := by
      intro he
      have := congrArg BitVec.toNat he
      simp at this h
      omega
    simp [UnpackedFloat.isNaN, hne]
  | case6 s m e hm bits biased h hn => simp [UnpackedFloat.isNaN]

theorem isNaN_roundWithAccuracy (spec : Format) (s : UnpackedFloat.Sign) (m : Nat) (e : Int)
    (a : UnpackedFloat.Accuracy) : (roundWithAccuracy spec s m e a).isNaN = false := by
  unfold roundWithAccuracy
  dsimp only
  split <;> rfl

theorem isNaN_normalize (spec : Format) (m e : Int) (s : UnpackedFloat.Sign) :
    (UnpackedFloat.normalize spec m e s).isNaN = false := by
  unfold UnpackedFloat.normalize UnpackedFloat.round
  split
  · exact isNaN_roundWithAccuracy _ _ _ _ _
  · rfl
  · exact isNaN_roundWithAccuracy _ _ _ _ _

/-- The difference of finite numbers may be infinite, but it is a number. -/
theorem isNaN_sub {a b : Float} (ha : a.isFinite = true) (hb : b.isFinite = true) :
    (a - b).isNaN = false := by
  change (unpack .binary64 (pack .binary64
    (UnpackedFloat.sub .binary64 a.toModel.unpack b.toModel.unpack))).isNaN = false
  change a.toModel.unpack.isFinite = true at ha
  change b.toModel.unpack.isFinite = true at hb
  rw [isNaN_unpack_pack]
  cases ha' : a.toModel.unpack with
  | notANumber => simp [ha', UnpackedFloat.isFinite] at ha
  | infinity s => simp [ha', UnpackedFloat.isFinite] at ha
  | zero s =>
    cases hb' : b.toModel.unpack with
    | notANumber => simp [hb', UnpackedFloat.isFinite] at hb
    | infinity s => simp [hb', UnpackedFloat.isFinite] at hb
    | zero s => rw [UnpackedFloat.sub]; split <;> rfl
    | finite s m e hm => rfl
  | finite s m e hm =>
    cases hb' : b.toModel.unpack with
    | notANumber => simp [hb', UnpackedFloat.isFinite] at hb
    | infinity s => simp [hb', UnpackedFloat.isFinite] at hb
    | zero s => rfl
    | finite s m e hm => exact isNaN_normalize _ _ _ _

theorem isNaN_abs (a : Float) : a.abs.isNaN = a.isNaN := by
  change (unpack .binary64 (pack .binary64 a.toModel.unpack.abs)).isNaN = a.toModel.unpack.isNaN
  rw [isNaN_unpack_pack]
  cases a.toModel.unpack <;> rfl

theorem isNaN_of_isFinite {a : Float} (h : a.isFinite = true) : a.isNaN = false := by
  change a.toModel.unpack.isNaN = false
  change a.toModel.unpack.isFinite = true at h
  cases ha : a.toModel.unpack with
  | notANumber => simp [ha, UnpackedFloat.isFinite] at h
  | _ => rfl

theorem isInf_of_isFinite {a : Float} (h : a.isFinite = true) : a.isInf = false := by
  change a.toModel.unpack.isInf = false
  change a.toModel.unpack.isFinite = true at h
  cases ha : a.toModel.unpack with
  | infinity s => simp [ha, UnpackedFloat.isFinite] at h
  | _ => rfl

theorem compare_swap (u v : UnpackedFloat) : v.compare u = (u.compare v).map Ordering.swap := by
  cases u with
  | notANumber => cases v <;> rfl
  | infinity s => rcases s with _ | _ <;> rcases v with ⟨_ | _⟩ | _ | _ | ⟨_ | _⟩ <;> rfl
  | zero s => rcases v with ⟨_ | _⟩ | _ | _ | ⟨_ | _⟩ <;> rfl
  | finite s m e hm =>
    rcases s with _ | _ <;> rcases v with ⟨_ | _⟩ | _ | _ | ⟨_ | _⟩ <;>
      simp [UnpackedFloat.compare, Ordering.swap_then, Int.compare_swap, Nat.compare_swap]

theorem compare_isSome {u v : UnpackedFloat} (hu : u.isNaN = false) (hv : v.isNaN = false) :
    (u.compare v).isSome = true := by
  unfold UnpackedFloat.compare
  split <;> first | rfl | simp [UnpackedFloat.isNaN] at hu hv

theorem lt_iff_compare {a b : Float} :
    a < b ↔ a.toModel.unpack.compare b.toModel.unpack = some .lt := by
  change decide (a.toModel < b.toModel) = true ↔ _
  rw [decide_eq_true_iff, ← beq_iff_eq]
  rfl

/-- Of two numbers one is at most the other, or else greater. -/
theorem not_le_iff_lt {a b : Float} (ha : a.isNaN = false) (hb : b.isNaN = false) :
    ¬ a ≤ b ↔ b < a := by
  have hle : a ≤ b ↔ (a.toModel.unpack.compare b.toModel.unpack).any (·.isLE) = true := by
    change decide (a.toModel ≤ b.toModel) = true ↔ _
    rw [decide_eq_true_iff]
    rfl
  rw [hle, lt_iff_compare, compare_swap a.toModel.unpack]
  obtain ⟨o, ho⟩ := Option.isSome_iff_exists.mp (compare_isSome ha hb)
  rw [ho]
  cases o <;> decide

end Binary64

end DifferentialAnalyzer
