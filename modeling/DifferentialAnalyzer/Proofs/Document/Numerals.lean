import DifferentialAnalyzer.Decimal.Text
import DifferentialAnalyzer.Document.Numeral
import DifferentialAnalyzer.Proofs.FloatOrder
import Mathlib.Data.List.DropRight
import Mathlib.Data.List.TakeWhile

/-! Numerals as they are written. A numeral with digits in all of its parts is scanned as itself,
and the text of a finite double is one. -/

namespace DifferentialAnalyzer

/-- At least one digit, and nothing else. -/
def IsDigits (ds : List Char) : Prop :=
  ds ≠ [] ∧ ∀ c ∈ ds, c.isDigit = true

theorem isDigits_toDigits (n : Nat) : IsDigits (Nat.toDigits 10 n) :=
  ⟨Nat.toDigits_ne_nil, fun _ hc => Nat.isDigit_of_mem_toDigits (by decide) (by decide) hc⟩

theorem IsDigits.singleton {c : Char} (h : c.isDigit = true) : IsDigits [c] :=
  ⟨by simp, by simpa using h⟩

theorem IsDigits.append {ds es : List Char} (h : IsDigits ds) (he : ∀ c ∈ es, c.isDigit = true) :
    IsDigits (ds ++ es) :=
  ⟨by simp [h.1], fun c hc => (List.mem_append.mp hc).elim (h.2 c) (he c)⟩

theorem IsDigits.exists_cons {ds : List Char} (h : IsDigits ds) :
    ∃ c rest, ds = c :: rest ∧ c.isDigit = true := by
  obtain ⟨c, rest, rfl⟩ := List.exists_cons_of_ne_nil h.1
  exact ⟨c, rest, rfl, h.2 c List.mem_cons_self⟩

/-- A number is not written with zeros before it. -/
def NoPadding (ds : List Char) : Prop :=
  ∀ c rest, ds ≠ '0' :: c :: rest

theorem head_toDigits_ne {n : Nat} (hn : n ≠ 0) {rest : List Char} :
    Nat.toDigits 10 n ≠ '0' :: rest := by
  induction n using Nat.strong_induction_on generalizing rest with
  | h n ih =>
    rw [Nat.toDigits_eq_if (by decide)]
    split
    next hlt =>
      intro he
      have hdigit : ∀ k < 10, k ≠ 0 → Nat.digitChar k ≠ '0' := by decide
      exact hdigit n hlt hn (List.cons.inj he).1
    next hge =>
      obtain ⟨c, ds, hds, -⟩ := (isDigits_toDigits (n / 10)).exists_cons
      rw [hds]
      intro he
      obtain rfl := (List.cons.inj he).1
      exact ih (n / 10) (by omega) (by omega) hds

theorem noPadding_toDigits (n : Nat) : NoPadding (Nat.toDigits 10 n) := by
  intro c rest he
  by_cases hn : n = 0
  · subst hn
    cases he
  · exact head_toDigits_ne hn he

theorem Decimal.ofDigits_toDigits (n : Nat) : ofDigits (Nat.toDigits 10 n) = n := by
  have hh := @Nat.ofDigitChars_ten_toDigits n
  rwa [Nat.ofDigitChars_eq_foldl] at hh

namespace Document.Numeral

/-- What can stand behind a number without being taken for a part of it. -/
def Ends (cs : List Char) : Prop :=
  ∀ c rest, cs = c :: rest → c.isDigit = false ∧ c ≠ '.' ∧ c ≠ 'e' ∧ c ≠ 'E'

theorem ends_nil : Ends [] := by
  intro c rest h
  cases h

theorem scanDigits_append {ds rest : List Char} (h : IsDigits ds)
    (hrest : ∀ c tail, rest = c :: tail → c.isDigit = false) :
    scanDigits (ds ++ rest) = some (ds, rest) := by
  have hstop : rest.takeWhile Char.isDigit = [] ∧ rest.dropWhile Char.isDigit = rest := by
    cases rest with
    | nil => exact ⟨rfl, rfl⟩
    | cons c tail => simp [hrest c tail rfl]
  have htake : (ds ++ rest).takeWhile Char.isDigit = ds := by
    rw [List.takeWhile_append_of_pos h.2, hstop.1, List.append_nil]
  have hdrop : (ds ++ rest).dropWhile Char.isDigit = rest := by
    rw [List.dropWhile_append_of_pos h.2, hstop.2]
  simp [scanDigits, htake, hdrop, h.1]

/-- The text of a fraction, if there is one. -/
def fractionText : Option (List Char) → List Char
  | none => []
  | some ds => '.' :: ds

/-- The text of an exponent, if there is one. -/
def exponentText : Option (Bool × List Char) → List Char
  | none => []
  | some (negative, ds) => 'e' :: (if negative then '-' else '+') :: ds

/-- How a numeral is written. -/
def text (n : Numeral) : List Char :=
  (if n.negative then ['-'] else []) ++
    (n.whole ++ (fractionText n.fraction ++ exponentText n.exponent))

/-- All parts of a numeral are digits. -/
structure Proper (n : Numeral) : Prop where
  whole : IsDigits n.whole
  unpadded : NoPadding n.whole
  fraction : ∀ ds, n.fraction = some ds → IsDigits ds
  exponent : ∀ negative ds, n.exponent = some (negative, ds) → IsDigits ds

theorem scanWhole_append {ds rest : List Char} (h : IsDigits ds) (hpad : NoPadding ds)
    (hrest : ∀ c tail, rest = c :: tail → c.isDigit = false) :
    scanWhole (ds ++ rest) = some (ds, rest) := by
  simp only [scanWhole, scanDigits_append h hrest, Option.bind_eq_bind, Option.bind_some]
  split
  next _ c tail => exact absurd rfl (hpad c tail)
  next => rfl

theorem scanExponent_append {exponent : Option (Bool × List Char)} {rest : List Char}
    (h : ∀ negative ds, exponent = some (negative, ds) → IsDigits ds) (hrest : Ends rest) :
    scanExponent (exponentText exponent ++ rest) = some (exponent, rest) := by
  cases exponent with
  | none =>
    cases rest with
    | nil => rfl
    | cons c tail =>
      obtain ⟨-, -, he, hE⟩ := hrest c tail rfl
      simp [exponentText, scanExponent, he, hE]
  | some e =>
    obtain ⟨negative, ds⟩ := e
    have hscan := scanDigits_append (h negative ds rfl) fun c tail hc => (hrest c tail hc).1
    cases negative <;> simp [exponentText, scanExponent, hscan]

theorem scanFraction_append {fraction : Option (List Char)} {rest : List Char}
    (h : ∀ ds, fraction = some ds → IsDigits ds)
    (hrest : ∀ c tail, rest = c :: tail → c.isDigit = false ∧ c ≠ '.') :
    scanFraction (fractionText fraction ++ rest) = some (fraction, rest) := by
  cases fraction with
  | none =>
    cases rest with
    | nil => rfl
    | cons c tail =>
      obtain ⟨-, hdot⟩ := hrest c tail rfl
      simp only [fractionText, List.nil_append]
      unfold scanFraction
      split
      next heq => exact absurd (List.cons.inj heq).1 hdot
      next => rfl
  | some ds =>
    have hscan := scanDigits_append (h ds rfl) fun c tail hc => (hrest c tail hc).1
    simp [fractionText, scanFraction, hscan]

/-- What follows the whole part starts with no digit. -/
theorem not_isDigit_tail {n : Numeral} {rest : List Char} (hrest : Ends rest) (c : Char)
    (tail : List Char)
    (h : fractionText n.fraction ++ exponentText n.exponent ++ rest = c :: tail) :
    c.isDigit = false := by
  cases hf : n.fraction with
  | some ds =>
    rw [hf] at h
    obtain rfl := (List.cons.inj h).1
    rfl
  | none =>
    cases he : n.exponent with
    | some e =>
      rw [hf, he] at h
      obtain rfl := (List.cons.inj h).1
      rfl
    | none =>
      rw [hf, he] at h
      exact (hrest c tail h).1

/-- The numeral behind its sign. -/
def scanUnsigned (negative : Bool) (cs : List Char) : Option (Numeral × List Char) := do
  let (whole, cs) ← scanWhole cs
  let (fraction, cs) ← scanFraction cs
  let (exponent, cs) ← scanExponent cs
  some (⟨negative, whole, fraction, exponent⟩, cs)

theorem scan_minus (cs : List Char) : scan ('-' :: cs) = scanUnsigned true cs :=
  rfl

theorem scan_digit {c : Char} (h : c.isDigit = true) (cs : List Char) :
    scan (c :: cs) = scanUnsigned false (c :: cs) := by
  have hc : c ≠ '-' := by
    rintro rfl
    cases h
  rw [scan.eq_def]
  split
  next heq =>
    split at heq
    next he => exact absurd (List.cons.inj he).1 hc
    next =>
      obtain ⟨rfl, rfl⟩ := Prod.mk.inj heq
      rfl

theorem scanUnsigned_eq {n : Numeral} (h : n.Proper) {rest : List Char} (hrest : Ends rest) :
    scanUnsigned n.negative
        (n.whole ++ (fractionText n.fraction ++ exponentText n.exponent ++ rest)) =
      some (n, rest) := by
  have hwhole := scanWhole_append h.whole h.unpadded (not_isDigit_tail (n := n) hrest)
  have hexponent := scanExponent_append h.exponent hrest
  have hfraction : scanFraction (fractionText n.fraction ++ exponentText n.exponent ++ rest) =
      some (n.fraction, exponentText n.exponent ++ rest) := by
    rw [List.append_assoc]
    refine scanFraction_append h.fraction fun c tail hc => ?_
    cases he : n.exponent with
    | some e =>
      rw [he] at hc
      obtain rfl := (List.cons.inj hc).1
      decide
    | none =>
      rw [he] at hc
      exact ⟨(hrest c tail hc).1, (hrest c tail hc).2.1⟩
  simp only [scanUnsigned, hwhole, hfraction, hexponent, Option.bind_eq_bind, Option.bind_some]

theorem scan_text {n : Numeral} (h : n.Proper) {rest : List Char} (hrest : Ends rest) :
    scan (n.text ++ rest) = some (n, rest) := by
  have hscan := scanUnsigned_eq h hrest
  cases hn : n.negative with
  | true =>
    rw [hn] at hscan
    simpa [text, hn, scan_minus] using hscan
  | false =>
    obtain ⟨c, ds, hds, hc⟩ := h.whole.exists_cons
    rw [hn, hds] at hscan
    simpa [text, hn, hds, scan_digit hc] using hscan

end Document.Numeral

namespace Decimal

/-- Stated for any exponent, so that no large power is worked out. -/
theorem pow_ne_zero {b : Nat} (h : b ≠ 0) (n : Nat) : Nat.pow b n ≠ 0 :=
  (Nat.pow_pos (Nat.pos_of_ne_zero h)).ne'

theorem units_ne_zero {rank : Nat} (h : rank ≠ 0) : Binary64.units rank ≠ 0 := by
  have hbinade : Binary64.binade ≠ 0 := pow_ne_zero (by decide) 52
  refine Nat.mul_ne_zero ?_ (pow_ne_zero (by decide) _)
  unfold Binary64.significand
  split <;> omega

theorem Tie.rank_choose (tie : Tie) {below above : Decimal} {rank : Nat}
    (hbelow : below.rank = rank) (habove : above.rank = rank) :
    (tie.choose below above).rank = rank := by
  cases tie with
  | up => exact habove
  | even =>
    rw [choose]
    split
    · exact hbelow
    · exact habove

theorem rank_onGrid {tie : Tie} {rank : Nat} {exponent : Int} {d : Decimal}
    (h : onGrid tie rank exponent = some d) : d.rank = rank := by
  unfold onGrid at h
  simp only at h
  split at h
  next hbelow =>
    split at h
    next habove =>
      split at h
      · exact Option.some.inj h ▸ hbelow
      · exact Option.some.inj h ▸ habove
      · exact Option.some.inj h ▸ tie.rank_choose hbelow habove
    next => exact Option.some.inj h ▸ hbelow
  next =>
    split at h
    next habove => exact Option.some.inj h ▸ habove
    next => cases h

theorem coefficient_shortest_ne_zero (tie : Tie) {rank : Nat} (h : rank ≠ 0) :
    (shortest tie rank).coefficient ≠ 0 := by
  rw [shortest]
  cases hfind : (List.range 17).findSome? fun (n : Nat) =>
      onGrid tie rank (leadOfRank rank - n) with
  | none =>
    rw [Option.getD_none, ofRank]
    generalize 1074 = n
    exact Nat.mul_ne_zero (units_ne_zero h) (pow_ne_zero (by decide) n)
  | some d =>
    obtain ⟨n, -, hd⟩ := List.exists_of_findSome?_eq_some hfind
    have hrank := rank_onGrid hd
    intro hzero
    have hzero : d.coefficient = 0 := hzero
    rw [Decimal.rank, if_pos hzero] at hrank
    exact h hrank.symm

/-- Digits without zeros before them; zero itself counts ones. -/
structure Numeral.Proper (n : Numeral) : Prop where
  digits : IsDigits n.digits
  unpadded : n = ⟨['0'], 0⟩ ∨ ∀ rest, n.digits ≠ '0' :: rest

theorem proper_shortestNumeral (tie : Tie) (rank : Nat) : (shortestNumeral tie rank).Proper := by
  unfold shortestNumeral
  split
  · exact ⟨.singleton rfl, .inl rfl⟩
  next hrank =>
    have hne := coefficient_shortest_ne_zero tie hrank
    obtain ⟨c, ds, hds, -⟩ := (isDigits_toDigits (shortest tie rank).coefficient).exists_cons
    have hc : c ≠ '0' := by
      rintro rfl
      exact head_toDigits_ne hne hds
    have hstart := List.rdropWhile_prefix (· == '0')
      (Nat.toDigits 10 (shortest tie rank).coefficient)
    have hnonempty :
        (Nat.toDigits 10 (shortest tie rank).coefficient).rdropWhile (· == '0') ≠ [] := by
      rw [Ne, List.rdropWhile_eq_nil_iff, hds]
      exact fun h => hc (by simpa using h c List.mem_cons_self)
    refine ⟨⟨hnonempty, fun d hd => (isDigits_toDigits _).2 d (hstart.subset hd)⟩, .inr ?_⟩
    intro rest he
    change (Nat.toDigits 10 (shortest tie rank).coefficient).rdropWhile _ = _ at he
    rw [he, hds] at hstart
    exact hc (List.cons_prefix_cons.mp hstart).1.symm

theorem zeros_isDigit (n : Int) : ∀ c ∈ zeros n, c.isDigit = true := by
  intro c hc
  obtain rfl := List.eq_of_mem_replicate hc
  rfl

/-- Without an exponent the digits stand before the point, with zeros behind them if they do not
reach it, or on both sides of it, with zeros before them if they begin behind it. -/
theorem Numeral.Proper.positional_cases {n : Numeral} (h : n.Proper) (ending : List Char) :
    (∃ k : Nat, (k : Int) = n.lead + 1 - n.digits.length ∧
      NoPadding (n.digits ++ List.replicate k '0') ∧
      n.positional ending = n.digits ++ List.replicate k '0' ++ ending) ∨
    ∃ whole fraction, IsDigits whole ∧ NoPadding whole ∧ IsDigits fraction ∧
      n.positional ending = whole ++ '.' :: fraction ∧
      (fraction.length : Int) = n.digits.length - (n.lead + 1) ∧
      ∃ k, whole ++ fraction = List.replicate k '0' ++ n.digits := by
  unfold Numeral.positional
  split
  next hlead =>
    refine .inr ⟨['0'], zeros (-n.lead - 1) ++ n.digits, .singleton rfl, by simp [NoPadding],
      ⟨by simp [h.digits.1], fun c hc => (List.mem_append.mp hc).elim (zeros_isDigit _ c)
        (h.digits.2 c)⟩, rfl, ?_, (-n.lead - 1).toNat + 1, rfl⟩
    simp only [zeros, List.length_append, List.length_replicate]
    omega
  next hlead =>
    split
    next hlength =>
      refine .inl ⟨(n.lead + 1 - n.digits.length).toNat, by omega, ?_, rfl⟩
      rcases h.unpadded with rfl | hhead
      · simp [NoPadding]
      · obtain ⟨c, ds, hds, -⟩ := h.digits.exists_cons
        rw [hds]
        rintro d rest he
        obtain rfl := (List.cons.inj he).1
        exact hhead ds hds
    next hlength =>
      obtain ⟨c, ds, hds, -⟩ := h.digits.exists_cons
      obtain ⟨k, hk⟩ : ∃ k, (n.lead + 1).toNat = k + 1 := ⟨n.lead.toNat, by omega⟩
      refine .inr ⟨n.digits.take (n.lead + 1).toNat, n.digits.drop (n.lead + 1).toNat,
        ⟨by simp [hds, hk], fun d hd => h.digits.2 d (List.mem_of_mem_take hd)⟩, ?_,
        ⟨?_, fun d hd => h.digits.2 d (List.mem_of_mem_drop hd)⟩, rfl, ?_, 0,
        List.take_append_drop ..⟩
      · rw [hds, hk, List.take_succ_cons]
        rintro d rest he
        obtain rfl := (List.cons.inj he).1
        rcases h.unpadded with rfl | hhead
        · exact hlength (by decide)
        · exact hhead ds hds
      · rw [Ne, List.drop_eq_nil_iff]
        omega
      · rw [List.length_drop]
        omega

theorem isDigits_append_replicate {ds : List Char} (h : IsDigits ds) (k : Nat) :
    IsDigits (ds ++ List.replicate k '0') :=
  h.append fun c hc => by rw [List.eq_of_mem_replicate hc]; rfl

/-- Around the point there are digits on both sides. -/
theorem Numeral.Proper.positional {n : Numeral} (h : n.Proper) :
    ∃ whole fraction, IsDigits whole ∧ NoPadding whole ∧ IsDigits fraction ∧
      n.positional ['.', '0'] = whole ++ '.' :: fraction := by
  rcases h.positional_cases ['.', '0'] with ⟨k, -, hpad, he⟩ |
    ⟨whole, fraction, hwhole, hpad, hfraction, he, -⟩
  · exact ⟨_, ['0'], isDigits_append_replicate h.digits k, hpad, .singleton rfl, he⟩
  · exact ⟨whole, fraction, hwhole, hpad, hfraction, he⟩

/-- With an exponent there is one digit before the point, if there is a point. -/
theorem Numeral.Proper.scientific {n : Numeral} (h : n.Proper) :
    ∃ c fraction exponent, c.isDigit = true ∧ (∀ ds, fraction = some ds → IsDigits ds) ∧
      IsDigits exponent ∧ n.scientific ['+'] = c :: (Document.Numeral.fractionText fraction ++
        Document.Numeral.exponentText (some (decide (n.lead < 0), exponent))) := by
  have hexponent : (if n.lead < 0 then ['-'] else ['+']) ++ Nat.toDigits 10 n.lead.natAbs =
      (if decide (n.lead < 0) = true then '-' else '+') :: Nat.toDigits 10 n.lead.natAbs := by
    split <;> simp_all
  unfold Numeral.scientific
  simp only [hexponent]
  obtain ⟨c, ds, hds, hc⟩ := h.digits.exists_cons
  cases ds with
  | nil =>
    exact ⟨c, none, _, hc, by simp, isDigits_toDigits n.lead.natAbs, by simp only [hds]; rfl⟩
  | cons d rest =>
    refine ⟨c, some (d :: rest), _, hc, ?_, isDigits_toDigits n.lead.natAbs, by
      simp only [hds]; rfl⟩
    rintro _ ⟨⟩
    exact ⟨by simp, fun e he => h.digits.2 e (hds ▸ List.mem_cons_of_mem _ he)⟩

end Decimal

open Document.Numeral in
/-- A finite double is written as a numeral with a fraction or an exponent. -/
theorem exists_numeral_dataFloat {x : Float} (h : x.isFinite = true) :
    ∃ n : Document.Numeral, n.Proper ∧ (n.fraction.isSome || n.exponent.isSome) = true ∧
      (dataFloat x).toList = n.text := by
  have hproper := Decimal.proper_shortestNumeral .even (Binary64.rank x)
  simp only [dataFloat, h, if_true, floatText, Binary64.isNaN_of_isFinite h,
    Binary64.isInf_of_isFinite h, Bool.false_eq_true, if_false, String.toList_ofList]
  generalize Decimal.shortestNumeral .even (Binary64.rank x) = m at hproper
  by_cases hplain : -5 ≤ m.lead ∧ m.lead ≤ 15
  · obtain ⟨whole, fraction, hwhole, hpad, hfraction, he⟩ := hproper.positional
    refine ⟨⟨Binary64.isNegative x, whole, some fraction, none⟩,
      ⟨hwhole, hpad, by rintro _ ⟨⟩; exact hfraction, by simp⟩, rfl, ?_⟩
    rw [if_pos hplain, he]
    simp [text, fractionText, exponentText]
  · obtain ⟨c, fraction, exponent, hc, hfraction, hexponent, he⟩ := hproper.scientific
    refine ⟨⟨Binary64.isNegative x, [c], fraction, some (decide (m.lead < 0), exponent)⟩,
      ⟨.singleton hc, by simp [NoPadding], hfraction, by rintro _ _ ⟨⟩; exact hexponent⟩,
      by simp, ?_⟩
    rw [if_neg hplain, he]
    rfl

end DifferentialAnalyzer
