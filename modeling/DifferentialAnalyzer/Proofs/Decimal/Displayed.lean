import DifferentialAnalyzer.Proofs.Decimal.Nearest
import DifferentialAnalyzer.Proofs.Expr.NumberTokens

/-! The text of a finite double that is not negative: digits, perhaps with a point among them, which
are read as that double. -/

namespace DifferentialAnalyzer

open Document.Numeral (fractionText)

namespace Binary64

open Float.Model (Format)
open Float.Model.UnpackedFloat (unpackExponent)

section Finite

variable {rank : Nat}

theorem lt_of_isFinite (hle : rank ≤ infinityRank) (h : (toFloat false rank).isFinite = true) :
    rank < infinityRank := by
  refine Nat.lt_of_le_of_ne hle ?_
  rintro rfl
  have hinfinite : (toFloat false infinityRank).isFinite = false := by decide +kernel
  rw [hinfinite] at h
  cases h

theorem infinityRank_eq : infinityRank = 2047 * 2 ^ 52 :=
  rfl

/-- Only patterns from that of infinity on can be those of what is not a number. -/
theorem valid_of_lt (h : rank < infinityRank) :
    Format.binary64.Valid rank.toUInt64.toBitVec := by
  refine ⟨fun he => ?_⟩
  have hexponent : (rank % 18446744073709551616) >>> 52 % 2048 = 2047 := by
    simpa [unpackExponent] using congrArg BitVec.toNat he
  rw [infinityRank_eq] at h
  rw [Nat.shiftRight_eq_div_pow] at hexponent
  omega

theorem toBits_toFloat (h : rank < infinityRank) :
    (toFloat false rank).toBits = rank.toUInt64 := by
  have hbits : (if false = true then Word.half else 0) + rank = rank := by simp
  rw [toFloat, hbits]
  exact congrArg Float.toBits (Float.ofBits_toBits ⟨⟨rank.toUInt64, valid_of_lt h⟩⟩)

theorem toNat_toBits_toFloat (h : rank < infinityRank) :
    (toFloat false rank).toBits.toNat = rank := by
  rw [toBits_toFloat h]
  rw [infinityRank_eq] at h
  exact Nat.mod_eq_of_lt (by omega)

theorem rank_toFloat (h : rank < infinityRank) : Binary64.rank (toFloat false rank) = rank := by
  rw [Binary64.rank, toNat_toBits_toFloat h]
  rw [infinityRank_eq] at h
  exact Nat.mod_eq_of_lt (by rw [Word.half]; omega)

theorem isNegative_toFloat (h : rank < infinityRank) : isNegative (toFloat false rank) = false := by
  rw [isNegative, toNat_toBits_toFloat h]
  rw [infinityRank_eq] at h
  exact decide_eq_false (by rw [Word.half]; omega)

end Finite

end Binary64

theorem IsDigits.takeWhile_append {ds : List Char} (h : IsDigits ds) (rest : List Char)
    (hr : ∀ c tail, rest = c :: tail → c.isDigit = false) :
    (ds ++ rest).takeWhile Char.isDigit = ds ∧ (ds ++ rest).dropWhile Char.isDigit = rest :=
  Token.takeWhile_digits (List.all_eq_true.mpr h.2) hr

namespace Decimal

open Binary64

/-- Digits, perhaps with a point and more digits behind them. -/
structure Plain (whole : List Char) (fraction : Option (List Char)) : Prop where
  whole : IsDigits whole
  fraction : ∀ ds, fraction = some ds → IsDigits ds

theorem read_plain {whole : List Char} {fraction : Option (List Char)} (h : Plain whole fraction) :
    read (whole ++ fractionText fraction) =
      some ⟨ofDigits (whole ++ fraction.getD []), -(fraction.getD []).length⟩ := by
  cases fraction with
  | none =>
    obtain ⟨htake, hdrop⟩ := h.whole.takeWhile_append [] (by simp)
    unfold read
    rw [fractionText, htake, hdrop]
    simp [h.whole.1, readTail]
  | some ds =>
    obtain ⟨htake, hdrop⟩ := h.whole.takeWhile_append ('.' :: ds) (by
      rintro c rest he
      obtain rfl := (List.cons.inj he).1
      rfl)
    obtain ⟨htake', hdrop'⟩ := (h.fraction ds rfl).takeWhile_append [] (by simp)
    rw [List.append_nil] at htake' hdrop'
    unfold read
    rw [fractionText, htake, hdrop]
    simp [htake', hdrop', h.whole.1, readTail]

/-- Positional text is plain, and its value is that of its digits. -/
theorem Numeral.Proper.exists_plain {n : Numeral} (h : n.Proper) :
    ∃ whole fraction, Plain whole fraction ∧
      n.positional [] = whole ++ fractionText fraction ∧
      rank ⟨ofDigits (whole ++ fraction.getD []), -(fraction.getD []).length⟩ = n.value.rank := by
  rcases h.positional_cases [] with ⟨k, hk, -, he⟩ |
    ⟨whole, fraction, hwhole, -, hfraction, he, hlength, k, hdigits⟩
  · refine ⟨_, none, ⟨isDigits_append_replicate h.digits k, by simp⟩, he, ?_⟩
    have hvalue : n.value = ⟨ofDigits n.digits, 0 + k⟩ := by
      rw [value, hk, Int.zero_add]
    rw [hvalue, ← rank_mul_pow, ← ofDigits_append_replicate]
    simp
  · refine ⟨whole, some fraction, ⟨hwhole, by rintro _ ⟨⟩; exact hfraction⟩, he, ?_⟩
    have hvalue : n.value = ⟨ofDigits n.digits, -fraction.length⟩ := by
      rw [value, hlength]
      congr 1
      omega
    rw [Option.getD_some, hdigits, ofDigits_replicate_append, hvalue]

/-- The text of a finite double that is not negative is read as it. -/
theorem exists_displayFloat {rank : Nat} (hle : rank ≤ infinityRank)
    (hfinite : (Binary64.toFloat false rank).isFinite = true) :
    ∃ whole fraction, Plain whole fraction ∧
      (displayFloat (Binary64.toFloat false rank)).toList = whole ++ fractionText fraction ∧
      (read (whole ++ fractionText fraction)).map (toFloat false) =
        some (Binary64.toFloat false rank) := by
  have hlt := lt_of_isFinite hle hfinite
  obtain ⟨whole, fraction, hplain, htext, hrank⟩ :=
    (proper_shortestNumeral .up rank).exists_plain
  refine ⟨whole, fraction, hplain, ?_, ?_⟩
  · rw [← htext, displayFloat, floatText, isNaN_of_isFinite hfinite, isInf_of_isFinite hfinite,
      isNegative_toFloat hlt, rank_toFloat hlt]
    simp
  · rw [read_plain hplain, Option.map_some, toFloat, hrank,
      Numeral.rank_value_shortestNumeral .up hlt]

end Decimal

end DifferentialAnalyzer
