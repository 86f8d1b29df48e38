import DifferentialAnalyzer.Document.Quoted

/-! Any text between quotes is read as itself. -/

namespace DifferentialAnalyzer.Document

theorem ofRadix_hexDigits {n : Nat} (h : n < 0x20) :
    ofRadix 16 ['0', '0', hexDigit (n / 16), hexDigit (n % 16)] = some n := by
  have hall : ∀ n < 0x20, ofRadix 16 ['0', '0', hexDigit (n / 16), hexDigit (n % 16)] = some n := by
    decide
  exact hall n h

theorem scanCodes_plain {c : Char} (hquote : c ≠ '"') (hback : c ≠ '\\') (hge : ¬c.toNat < 0x20)
    (cs : List Char) : scanCodes (c :: cs) = (scanCodes cs).map fun r => (c.toNat :: r.1, r.2) := by
  rw [scanCodes.eq_def]
  split
  next he => exact absurd (List.cons.inj he).1 hquote
  next he => exact absurd (List.cons.inj he).1 hback
  next he => exact absurd (List.cons.inj he).1 hback
  next c' rest _ _ _ he =>
    obtain ⟨rfl, rfl⟩ := List.cons.inj he
    rw [if_neg (not_or.mpr ⟨hge, hback⟩)]
    cases scanCodes cs <;> rfl
  next he => cases he

theorem scanCodes_escaped {e c : Char} (h : escaped? e = some c) (cs : List Char) :
    scanCodes ('\\' :: e :: cs) = (scanCodes cs).map fun r => (c.toNat :: r.1, r.2) := by
  rw [scanCodes.eq_def]
  split
  next he => cases (List.cons.inj he).1
  next he =>
    obtain rfl := (List.cons.inj (List.cons.inj he).2).1
    cases h
  next e' rest _ he =>
    obtain ⟨rfl, rfl⟩ := List.cons.inj (List.cons.inj he).2
    rw [h]
    cases scanCodes cs <;> rfl
  next hback he =>
    obtain ⟨rfl, rfl⟩ := List.cons.inj he
    exact absurd rfl (hback _ _ rfl)
  next he => cases he

/-- A character is read as itself, be it escaped or not. -/
theorem scanCodes_escape (c : Char) (cs : List Char) :
    scanCodes (escape c ++ cs) = (scanCodes cs).map fun r => (c.toNat :: r.1, r.2) := by
  unfold escape
  split
  case h_8 hquote hback _ _ _ _ _ =>
    split
    next hlt =>
      simp only [List.cons_append, List.nil_append, scanCodes, ofRadix_hexDigits hlt,
        Option.bind_eq_bind, Option.bind_some]
      cases scanCodes cs <;> rfl
    next hge => exact scanCodes_plain hquote hback hge cs
  all_goals exact scanCodes_escaped rfl cs

theorem scanCodes_flatMap (cs rest : List Char) :
    scanCodes (cs.flatMap escape ++ '"' :: rest) = some (cs.map Char.toNat, rest) := by
  induction cs with
  | nil => rfl
  | cons c cs ih => simp [scanCodes_escape, ih]

theorem not_isHalf (c : Char) :
    isLeadingHalf c.toNat = false ∧ isTrailingHalf c.toNat = false := by
  have hvalid : c.toNat < 0xd800 ∨ 0xdfff < c.toNat ∧ c.toNat < 0x110000 := c.valid
  simp only [isLeadingHalf, isTrailingHalf, Bool.and_eq_false_iff, decide_eq_false_iff_not]
  omega

theorem joinHalves_map (cs : List Char) : joinHalves (cs.map Char.toNat) = some cs := by
  induction cs with
  | nil => rfl
  | cons c cs ih =>
    obtain ⟨hleading, htrailing⟩ := not_isHalf c
    cases cs with
    | nil => simp [joinHalves, hleading, htrailing]
    | cons d ds =>
      rw [List.map_cons] at ih
      simp [joinHalves, hleading, htrailing, ih]

theorem scanText_flatMap (s : String) (rest : List Char) :
    scanText (s.toList.flatMap escape ++ '"' :: rest) = some (some s, rest) := by
  simp [scanText, scanCodes_flatMap, joinHalves_map]

end DifferentialAnalyzer.Document
