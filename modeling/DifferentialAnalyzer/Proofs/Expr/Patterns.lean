import Mathlib.Computability.Language
import DifferentialAnalyzer.Proofs.Expr.Scanning

/-! The patterns of tokens as regular languages, with the texts in them spelled out: numbers, words
and signs. No number or word at the front of a text is longer than the one that the scan finds. -/

namespace DifferentialAnalyzer

open Computability

namespace Token

/-- Texts of one character of a class. -/
def one (p : Char → Bool) : Language Char :=
  {cs | ∃ c, p c = true ∧ cs = [c]}

/-- This text alone. -/
def exactly (text : String) : Language Char :=
  {text.toList}

def digits : Language Char :=
  one Char.isDigit * (one Char.isDigit)∗

def fraction : Language Char :=
  exactly "." * digits

def exponent : Language Char :=
  (exactly "e" + exactly "E") * (1 + (exactly "+" + exactly "-")) * digits

end Token

open Token in
/-- The texts that a token of this kind may have. -/
def TokenKind.pattern : TokenKind → Language Char
  | .plus => exactly "+"
  | .minus => exactly "-"
  | .star => exactly "*"
  | .slash => exactly "/"
  | .percent => exactly "%"
  | .caret => exactly "^"
  | .atLeast => exactly ">="
  | .atMost => exactly "<="
  | .equal => exactly "=="
  | .unequal => exactly "!="
  | .greater => exactly ">"
  | .less => exactly "<"
  | .assign => exactly "="
  | .semicolon => exactly ";"
  | .comma => exactly ","
  | .leftBracket => exactly "("
  | .rightBracket => exactly ")"
  | .number => digits * (1 + fraction) * (1 + exponent) + fraction * (1 + exponent)
  | .sum => exactly "sum"
  | .product => exactly "product"
  | .name => one startsName * (one continuesName)∗

namespace Token

section Languages

variable {cs : List Char}

theorem mem_exactly_iff {text : String} : cs ∈ exactly text ↔ cs = text.toList :=
  Iff.rfl

theorem mem_star_one_iff {p : Char → Bool} : cs ∈ (one p)∗ ↔ ∀ c ∈ cs, p c = true := by
  rw [Language.mem_kstar]
  constructor
  · rintro ⟨pieces, rfl, hpieces⟩ c hc
    obtain ⟨piece, hpiece, hc⟩ := List.mem_flatten.mp hc
    obtain ⟨d, hd, rfl⟩ := hpieces piece hpiece
    exact List.mem_singleton.mp hc ▸ hd
  · intro h
    refine ⟨cs.map fun c => [c], (List.flatMap_singleton' cs).symm, fun piece hpiece => ?_⟩
    obtain ⟨c, hc, rfl⟩ := List.mem_map.mp hpiece
    exact ⟨c, h c hc, rfl⟩

theorem mem_one_mul_star_iff {p q : Char → Bool} :
    cs ∈ one p * (one q)∗ ↔ ∃ c rest, cs = c :: rest ∧ p c = true ∧ ∀ d ∈ rest, q d = true := by
  simp only [Language.mem_mul, mem_star_one_iff]
  constructor
  · rintro ⟨_, ⟨c, hc, rfl⟩, rest, hrest, rfl⟩
    exact ⟨c, rest, rfl, hc, hrest⟩
  · rintro ⟨c, rest, rfl, hc, hrest⟩
    exact ⟨[c], ⟨c, hc, rfl⟩, rest, hrest, rfl⟩

theorem mem_digits_iff : cs ∈ digits ↔ IsDigits cs := by
  rw [digits, mem_one_mul_star_iff, IsDigits]
  constructor
  · rintro ⟨c, rest, rfl, hc, hrest⟩
    exact ⟨List.cons_ne_nil c rest, List.forall_mem_cons.mpr ⟨hc, hrest⟩⟩
  · rintro ⟨hne, hall⟩
    obtain ⟨c, rest, rfl⟩ := List.exists_cons_of_ne_nil hne
    exact ⟨c, rest, rfl, List.forall_mem_cons.mp hall⟩

theorem mem_fraction_iff : cs ∈ fraction ↔ ∃ ds, cs = '.' :: ds ∧ IsDigits ds := by
  simp only [fraction, Language.mem_mul, mem_exactly_iff, mem_digits_iff]
  constructor
  · rintro ⟨_, rfl, ds, hds, rfl⟩
    exact ⟨ds, rfl, hds⟩
  · rintro ⟨ds, rfl, hds⟩
    exact ⟨_, rfl, ds, hds, rfl⟩

theorem mem_exponent_iff : cs ∈ exponent ↔ ∃ mark sign ds, cs = mark :: (sign ++ ds) ∧
    (mark = 'e' ∨ mark = 'E') ∧ (sign = [] ∨ sign = ['+'] ∨ sign = ['-']) ∧ IsDigits ds := by
  simp only [exponent, Language.mem_mul, Language.mem_add, Language.mem_one, mem_exactly_iff,
    mem_digits_iff]
  constructor
  · rintro ⟨_, ⟨mark, hmark, sign, hsign, rfl⟩, ds, hds, rfl⟩
    rcases hmark with rfl | rfl
    · exact ⟨'e', sign, ds, rfl, .inl rfl, hsign, hds⟩
    · exact ⟨'E', sign, ds, rfl, .inr rfl, hsign, hds⟩
  · rintro ⟨mark, sign, ds, rfl, hmark, hsign, hds⟩
    refine ⟨mark :: sign, ⟨[mark], ?_, sign, hsign, rfl⟩, ds, hds, rfl⟩
    exact hmark.imp (congrArg ([·])) (congrArg ([·]))

theorem mem_name_iff : cs ∈ TokenKind.name.pattern ↔ IsWord cs :=
  mem_one_mul_star_iff

/-- A number has digits before the point or behind it, and perhaps an exponent. -/
theorem mem_number_iff : cs ∈ TokenKind.number.pattern ↔
    ∃ whole f x, cs = whole ++ (f ++ x) ∧ (∀ c ∈ whole, c.isDigit = true) ∧
      (f = [] ∨ f ∈ fraction) ∧ (x = [] ∨ x ∈ exponent) ∧ (whole ≠ [] ∨ f ≠ []) := by
  simp only [TokenKind.pattern, Language.mem_add, Language.mem_mul, Language.mem_one,
    mem_digits_iff]
  constructor
  · rintro (⟨_, ⟨whole, hwhole, f, hf, rfl⟩, x, hx, rfl⟩ | ⟨f, hf, x, hx, rfl⟩)
    · exact ⟨whole, f, x, List.append_assoc .., hwhole.2, hf, hx, .inl hwhole.1⟩
    · refine ⟨[], f, x, rfl, by simp, .inr hf, hx, .inr ?_⟩
      obtain ⟨ds, rfl, -⟩ := mem_fraction_iff.mp hf
      exact List.cons_ne_nil _ _
  · rintro ⟨whole, f, x, rfl, hwhole, hf, hx, hne⟩
    by_cases hw : whole = []
    · subst hw
      have hf' := hf.resolve_left (hne.resolve_left fun h => h rfl)
      exact .inr ⟨f, hf', x, hx, rfl⟩
    · exact .inl ⟨_, ⟨whole, ⟨hw, hwhole⟩, f, hf, rfl⟩, x, hx, List.append_assoc ..⟩

end Languages

section Numbers

variable {cs rest : List Char}

theorem length_le_digitCount {ds : List Char} (h : ∀ c ∈ ds, c.isDigit = true) :
    ds.length ≤ digitCount (ds ++ rest) := by
  rw [digitCount, List.takeWhile_append_of_pos h, List.length_append]
  exact Nat.le_add_right _ _

theorem digitCount_ne_zero {ds : List Char} (h : IsDigits ds) : digitCount (ds ++ rest) ≠ 0 := by
  have hle := @length_le_digitCount rest ds h.2
  have hpos := List.length_pos_iff.mpr h.1
  omega

theorem isDigits_take_digitCount (h : digitCount cs ≠ 0) : IsDigits (cs.take (digitCount cs)) := by
  rw [take_digitCount]
  refine ⟨fun hnil => h ?_, fun c hc => List.mem_takeWhile_imp hc⟩
  rw [digitCount, hnil, List.length_nil]

theorem length_le_exponentLength (h : cs ∈ exponent) :
    cs.length ≤ exponentLength (cs ++ rest) := by
  obtain ⟨mark, sign, ds, rfl, hmark, hsign, hds⟩ := mem_exponent_iff.mp h
  have hm : (mark == 'e' || mark == 'E') = true := by rcases hmark with rfl | rfl <;> rfl
  have hle := @length_le_digitCount rest ds hds.2
  have hpos := @digitCount_ne_zero rest ds hds
  rcases hsign with rfl | rfl | rfl
  · obtain ⟨d, tail, rfl, hd⟩ := hds.exists_cons
    have hplus : d ≠ '+' := by
      rintro rfl
      cases hd
    have hminus : d ≠ '-' := by
      rintro rfl
      cases hd
    simp only [List.nil_append, List.cons_append] at hpos hle ⊢
    simp only [exponentLength, hm, if_true, if_neg hpos, beq_eq_false_iff_ne.mpr hplus,
      beq_eq_false_iff_ne.mpr hminus, Bool.or_self, Bool.false_eq_true, if_false,
      List.length_cons] at hle ⊢
    omega
  · simp only [List.cons_append, List.nil_append, exponentLength, hm, if_true, if_neg hpos,
      List.length_cons, beq_self_eq_true, Bool.true_or]
    omega
  · simp only [List.cons_append, List.nil_append, exponentLength, hm, if_true, if_neg hpos,
      List.length_cons, beq_self_eq_true, Bool.or_true]
    omega

theorem take_exponentLength (cs : List Char) :
    cs.take (exponentLength cs) = [] ∨ cs.take (exponentLength cs) ∈ exponent := by
  unfold exponentLength
  split
  · exact .inl rfl
  next mark cs =>
    split
    next hm =>
      have hmark : mark = 'e' ∨ mark = 'E' := by simpa using hm
      split
      · exact .inl rfl
      next s ds =>
        split
        next hs =>
          have hsign : s = '+' ∨ s = '-' := by simpa using hs
          split
          · exact .inl rfl
          next hd =>
            refine .inr (mem_exponent_iff.mpr ⟨mark, [s], _, rfl, hmark, ?_,
              isDigits_take_digitCount hd⟩)
            exact hsign.imp (congrArg ([·])) (congrArg ([·])) |> .inr
        next hs =>
          split
          · exact .inl rfl
          next hd =>
            exact .inr (mem_exponent_iff.mpr ⟨mark, [], _, rfl, hmark, .inl rfl,
              isDigits_take_digitCount hd⟩)
    · exact .inl rfl

theorem take_fractionLength (cs : List Char) :
    cs.take (fractionLength cs) = [] ∨ cs.take (fractionLength cs) ∈ fraction := by
  rcases fractionLength_cases cs with h | ⟨ds, rfl, hd, h⟩
  · exact .inl (by rw [h, List.take_zero])
  · rw [h, List.take_succ_cons]
    exact .inr (mem_fraction_iff.mpr ⟨_, rfl, isDigits_take_digitCount hd⟩)

/-- What follows digits that are not all of a number. -/
theorem not_isDigit_of_part (h : cs ∈ fraction ∨ cs ∈ exponent) (c : Char) (tail : List Char)
    (hc : cs ++ rest = c :: tail) : c.isDigit = false := by
  rcases h with h | h
  · obtain ⟨ds, rfl, -⟩ := mem_fraction_iff.mp h
    obtain ⟨rfl, -⟩ := List.cons.inj hc
    rfl
  · obtain ⟨mark, sign, ds, rfl, hmark, -⟩ := mem_exponent_iff.mp h
    obtain ⟨rfl, -⟩ := List.cons.inj hc
    rcases hmark with rfl | rfl <;> rfl

theorem fractionLength_of_exponent (h : cs ∈ exponent) : fractionLength (cs ++ rest) = 0 := by
  obtain ⟨mark, sign, ds, rfl, hmark, -⟩ := mem_exponent_iff.mp h
  refine fractionLength_of_ne fun c tail hc => ?_
  obtain ⟨rfl, -⟩ := List.cons.inj hc
  rcases hmark with rfl | rfl <;> decide

theorem length_le_fractionLength (h : cs ∈ fraction) :
    cs.length ≤ fractionLength (cs ++ rest) := by
  obtain ⟨ds, rfl, hds⟩ := mem_fraction_iff.mp h
  have hle := @length_le_digitCount rest ds hds.2
  rw [List.cons_append, fractionLength, if_neg (digitCount_ne_zero hds), List.length_cons]
  omega

theorem fractionLength_append (h : cs ∈ fraction)
    (hrest : ∀ c tail, rest = c :: tail → c.isDigit = false) :
    fractionLength (cs ++ rest) = cs.length := by
  obtain ⟨ds, rfl, hds⟩ := mem_fraction_iff.mp h
  rw [List.cons_append, fractionLength, if_neg (digitCount_ne_zero hds),
    digitCount_append hds.2 hrest, List.length_cons]

/-- No text of a number at the front is longer than the one that the scan finds. -/
theorem length_le_numberLength (h : cs ∈ TokenKind.number.pattern) :
    cs.length ≤ numberLength (cs ++ rest) := by
  obtain ⟨whole, f, x, rfl, hwhole, hf, hx, hne⟩ := mem_number_iff.mp h
  simp only [numberLength, List.length_append, List.append_assoc]
  rcases hf with rfl | hf
  · have hpos := List.length_pos_iff.mpr (hne.resolve_right fun h => h rfl)
    simp only [List.nil_append, List.length_nil]
    rcases hx with rfl | hx
    · have hle := @length_le_digitCount rest whole hwhole
      simp only [List.nil_append, List.length_nil]
      rw [if_neg (by omega)]
      omega
    · have hle := @length_le_exponentLength x rest hx
      rw [digitCount_append hwhole (not_isDigit_of_part (.inr hx)), List.drop_left,
        fractionLength_of_exponent hx, Nat.add_zero, List.drop_left, if_neg (by omega)]
      omega
  · rw [digitCount_append hwhole (not_isDigit_of_part (.inl hf)), List.drop_left]
    have hle := @length_le_fractionLength f (x ++ rest) hf
    have hpos : 0 < f.length := by
      obtain ⟨ds, rfl, -⟩ := mem_fraction_iff.mp hf
      exact Nat.succ_pos _
    rw [if_neg (by omega)]
    rcases hx with rfl | hx
    · simp only [List.length_nil]
      omega
    · have hle' := @length_le_exponentLength x rest hx
      rw [fractionLength_append hf (not_isDigit_of_part (.inr hx)), ← List.drop_drop,
        List.drop_left, List.drop_left]
      omega

theorem digitCount_le_length (cs : List Char) : digitCount cs ≤ cs.length :=
  (List.takeWhile_sublist Char.isDigit).length_le

theorem fractionLength_le_length (cs : List Char) : fractionLength cs ≤ cs.length := by
  rcases fractionLength_cases cs with h | ⟨ds, rfl, -, h⟩
  · omega
  · rw [h, List.length_cons]
    exact Nat.succ_le_succ (digitCount_le_length ds)

theorem exponentLength_le_length (cs : List Char) : exponentLength cs ≤ cs.length := by
  unfold exponentLength
  split
  · exact Nat.le_refl 0
  next c cs =>
    have hle := digitCount_le_length cs
    split
    · split
      · exact Nat.zero_le _
      next s ds =>
        have hle' := digitCount_le_length ds
        simp only [List.length_cons] at hle ⊢
        split <;> split <;> omega
    · exact Nat.zero_le _

theorem numberLength_le_length (cs : List Char) : numberLength cs ≤ cs.length := by
  have hwhole := digitCount_le_length cs
  have hf := fractionLength_le_length (cs.drop (digitCount cs))
  have hx := exponentLength_le_length
    (cs.drop (digitCount cs + fractionLength (cs.drop (digitCount cs))))
  rw [List.length_drop] at hf hx
  simp only [numberLength]
  split <;> omega

theorem take_numberLength (h : numberLength cs ≠ 0) :
    cs.take (numberLength cs) ∈ TokenKind.number.pattern := by
  have hpos : digitCount cs + fractionLength (cs.drop (digitCount cs)) ≠ 0 := by
    intro h0
    exact h (by rw [numberLength, if_pos h0])
  have hlen : numberLength cs = digitCount cs + fractionLength (cs.drop (digitCount cs)) +
      exponentLength (cs.drop (digitCount cs + fractionLength (cs.drop (digitCount cs)))) :=
    if_neg hpos
  rw [hlen, List.take_add, List.take_add, List.append_assoc]
  refine mem_number_iff.mpr ⟨_, _, _, rfl, fun c hc => ?_, take_fractionLength _,
    take_exponentLength _, ?_⟩
  · rw [take_digitCount] at hc
    exact List.mem_takeWhile_imp hc
  · by_contra hnil
    obtain ⟨hwhole, hf⟩ := not_or.mp hnil
    have hcount : digitCount cs = 0 := by
      rw [not_not, take_digitCount] at hwhole
      rw [digitCount, hwhole, List.length_nil]
    refine hpos ?_
    rcases fractionLength_cases (cs.drop (digitCount cs)) with hzero | ⟨ds, hds, -, hlength⟩
    · rw [hzero, hcount]
    · rw [not_not, hlength, hds] at hf
      cases hf

end Numbers

section Words

variable {cs rest : List Char}

theorem length_le_nameLength (h : IsWord cs) : cs.length ≤ nameLength (cs ++ rest) := by
  obtain ⟨c, tail, rfl, hc, htail⟩ := h
  rw [List.cons_append, nameLength, if_pos hc, List.takeWhile_append_of_pos htail,
    List.length_append, List.length_cons]
  omega

theorem nameLength_le_length (cs : List Char) : nameLength cs ≤ cs.length := by
  cases cs with
  | nil => exact Nat.le_refl 0
  | cons c cs =>
    rw [nameLength]
    split
    · exact Nat.succ_le_succ (List.takeWhile_sublist continuesName).length_le
    · exact Nat.zero_le _

theorem isWord_keyword {kind : TokenKind} (hk : kind = .sum ∨ kind = .product)
    (h : cs ∈ kind.pattern) : IsWord cs ∧ nameKind cs = kind := by
  rcases hk with rfl | rfl
  · obtain rfl := mem_exactly_iff.mp h
    exact ⟨⟨'s', ['u', 'm'], rfl, rfl, List.all_eq_true.mp rfl⟩, rfl⟩
  · obtain rfl := mem_exactly_iff.mp h
    exact ⟨⟨'p', ['r', 'o', 'd', 'u', 'c', 't'], rfl, rfl, List.all_eq_true.mp rfl⟩, rfl⟩

/-- Kinds whose texts are words. -/
def IsVerbal (kind : TokenKind) : Prop :=
  kind = .name ∨ kind = .sum ∨ kind = .product

theorem isWord_of_isVerbal {kind : TokenKind} (hk : IsVerbal kind) (h : cs ∈ kind.pattern) :
    IsWord cs := by
  rcases hk with rfl | hk
  · exact mem_name_iff.mp h
  · exact (isWord_keyword hk h).1

theorem nameKind_cases (cs : List Char) : nameKind cs = .sum ∧ cs = "sum".toList ∨
    nameKind cs = .product ∧ cs = "product".toList ∨ nameKind cs = .name := by
  unfold nameKind
  split
  next h => exact .inl ⟨rfl, h⟩
  · split
    next h => exact .inr (.inl ⟨rfl, h⟩)
    · exact .inr (.inr rfl)

theorem mem_pattern_nameKind (h : IsWord cs) : cs ∈ (nameKind cs).pattern := by
  rcases nameKind_cases cs with ⟨hk, hcs⟩ | ⟨hk, hcs⟩ | hk
  · rw [hk]
    exact hcs
  · rw [hk]
    exact hcs
  · rw [hk]
    exact mem_name_iff.mpr h

end Words

section Symbols

theorem mem_single {kind : TokenKind} {c : Char} (h : single c = some kind) :
    [c] ∈ kind.pattern := by
  unfold single at h
  split at h <;> cases h <;> rfl

theorem mem_withEquals {kind : TokenKind} {c : Char} (h : withEquals c = some kind) :
    [c, '='] ∈ kind.pattern := by
  unfold withEquals at h
  split at h <;> cases h <;> rfl

/-- What is neither a number nor a word is a sign, alone or with an equals sign behind it. -/
theorem sign_of_mem {kind : TokenKind} {cs : List Char} (hn : kind ≠ .number)
    (hw : ¬ IsVerbal kind) (h : cs ∈ kind.pattern) :
    ∃ c, single c = some kind ∧ cs = [c] ∨ withEquals c = some kind ∧ cs = [c, '='] := by
  cases kind
  case number => exact absurd rfl hn
  case name | sum | product => exact absurd (by simp [IsVerbal]) hw
  case atLeast | atMost | equal | unequal =>
    obtain rfl := mem_exactly_iff.mp h
    refine ⟨_, .inr ⟨?_, rfl⟩⟩
    rfl
  all_goals
    obtain rfl := mem_exactly_iff.mp h
    refine ⟨_, .inl ⟨?_, rfl⟩⟩
    rfl

/-- The sign that an equals sign behind a character completes. -/
def completed (c : Char) (rest : List Char) : Option TokenKind :=
  if rest.head? = some '=' then withEquals c else none

/-- A sign with an equals sign behind it is preferred to the sign alone. -/
theorem symbol_cons_eq (c : Char) (rest : List Char) :
    symbol (c :: rest) = ((completed c rest).map (·, 2)).or ((single c).map (·, 1)) := by
  unfold symbol completed
  split
  next heq =>
    obtain ⟨rfl, rfl⟩ := List.cons.inj heq
    rw [List.head?_cons, if_pos rfl]
    cases withEquals c <;> rfl
  next hne heq =>
    obtain ⟨rfl, rfl⟩ := List.cons.inj heq
    have hhead : rest.head? ≠ some '=' := by
      intro hhead
      obtain ⟨tail, rfl⟩ := List.head?_eq_some_iff.mp hhead
      exact hne tail rfl
    rw [if_neg hhead]
    rfl
  next heq => cases heq

end Symbols

end Token

end DifferentialAnalyzer
