import DifferentialAnalyzer.Expr.Token
import DifferentialAnalyzer.Decimal.Reader

/-! The scan for numbers and their reading fit together: what is scanned as a number can be read. -/

namespace DifferentialAnalyzer

namespace Token

/-- If it is a number, it can be read. -/
def Readable (t : Token) : Prop :=
  t.kind = .number → (Decimal.read t.text.toList).isSome = true

theorem take_digitCount (cs : List Char) : cs.take (digitCount cs) = cs.takeWhile Char.isDigit := by
  have h : (cs.takeWhile Char.isDigit ++ cs.dropWhile Char.isDigit).take (digitCount cs) =
      cs.takeWhile Char.isDigit := List.take_left
  rwa [List.takeWhile_append_dropWhile] at h

theorem drop_digitCount (cs : List Char) : cs.drop (digitCount cs) = cs.dropWhile Char.isDigit := by
  have h : (cs.takeWhile Char.isDigit ++ cs.dropWhile Char.isDigit).drop (digitCount cs) =
      cs.dropWhile Char.isDigit := List.drop_left
  rwa [List.takeWhile_append_dropWhile] at h

theorem all_takeWhile (cs : List Char) : (cs.takeWhile Char.isDigit).all Char.isDigit = true :=
  List.all_takeWhile

/-- An exponent, or nothing: it begins with a mark that is neither a digit nor a point. -/
structure IsTail (cs : List Char) : Prop where
  marked : ∀ c rest, cs = c :: rest → c = 'e' ∨ c = 'E'
  readable : (Decimal.readTail cs).isSome = true

theorem isTail_nil : IsTail [] :=
  ⟨fun _ _ h => (List.cons_ne_nil _ _ h.symm).elim, rfl⟩

theorem isTail_cons {c : Char} {ds : List Char} (hc : c = 'e' ∨ c = 'E')
    (h : (Decimal.readExponent ds).isSome = true) : IsTail (c :: ds) := by
  refine ⟨fun c' rest he => (List.cons.inj he).1 ▸ hc, ?_⟩
  rw [Decimal.readTail, if_pos (by rcases hc with rfl | rfl <;> rfl), h]

theorem readExponent_takeWhile {ds : List Char} (h : digitCount ds ≠ 0) :
    (Decimal.readExponent (ds.takeWhile Char.isDigit)).isSome = true := by
  have hall := all_takeWhile ds
  have hne : (ds.takeWhile Char.isDigit).isEmpty = false := by
    simpa [digitCount, List.isEmpty_eq_false_iff] using h
  unfold Decimal.readExponent
  split
  next hm =>
    split at hm
    next cs he =>
      -- A sign is no digit.
      rw [he] at hall
      simp at hall
    next cs he =>
      rw [he] at hall
      simp at hall
    next =>
      obtain ⟨rfl, rfl⟩ := Prod.mk.inj hm
      simp [hne, hall]

theorem readExponent_signed {s : Char} {ds : List Char} (hs : s = '+' ∨ s = '-')
    (h : digitCount ds ≠ 0) :
    (Decimal.readExponent (s :: ds.takeWhile Char.isDigit)).isSome = true := by
  have hall := all_takeWhile ds
  have hne : (ds.takeWhile Char.isDigit).isEmpty = false := by
    simpa [digitCount, List.isEmpty_eq_false_iff] using h
  rcases hs with rfl | rfl <;> simp [Decimal.readExponent, hne]

theorem isTail_exponent (cs : List Char) : IsTail (cs.take (exponentLength cs)) := by
  unfold exponentLength
  split
  · exact isTail_nil
  next c cs =>
    split
    next hc =>
      have hmark : c = 'e' ∨ c = 'E' := by simpa using hc
      split
      · exact isTail_nil
      next s ds =>
        split
        next hs =>
          have hsign : s = '+' ∨ s = '-' := by simpa using hs
          split
          · exact isTail_nil
          next hd =>
            rw [List.take_succ_cons, List.take_succ_cons, take_digitCount]
            exact isTail_cons hmark (readExponent_signed hsign hd)
        next hs =>
          split
          · exact isTail_nil
          next hd =>
            rw [List.take_succ_cons, take_digitCount]
            exact isTail_cons hmark (readExponent_takeWhile hd)
    · exact isTail_nil

/-- Digits end where a point or a tail begins. -/
theorem takeWhile_digits {ds rest : List Char} (hd : ds.all Char.isDigit = true)
    (hr : ∀ c rest', rest = c :: rest' → c.isDigit = false) :
    (ds ++ rest).takeWhile Char.isDigit = ds ∧ (ds ++ rest).dropWhile Char.isDigit = rest := by
  have hmem := List.all_eq_true.mp hd
  rw [List.takeWhile_append_of_pos hmem, List.dropWhile_append_of_pos hmem]
  cases rest with
  | nil => simp
  | cons c rest => simp [hr c rest rfl]

theorem IsTail.not_isDigit {tail : List Char} (h : IsTail tail) (c : Char) (rest : List Char)
    (he : tail = c :: rest) : c.isDigit = false := by
  rcases h.marked c rest he with rfl | rfl <;> rfl

theorem read_isSome {whole tail : List Char} (hw : whole.all Char.isDigit = true) (ht : IsTail tail)
    (hne : whole ≠ []) : (Decimal.read (whole ++ tail)).isSome = true := by
  obtain ⟨htake, hdrop⟩ := takeWhile_digits hw ht.not_isDigit
  have hread := ht.readable
  unfold Decimal.read
  rw [htake, hdrop]
  cases tail with
  | nil => simp [hne, Decimal.readTail]
  | cons c rest =>
    rcases ht.marked c rest rfl with rfl | rfl <;> simp [hne, hread]

theorem read_point_isSome {whole part tail : List Char} (hw : whole.all Char.isDigit = true)
    (hp : part.all Char.isDigit = true) (ht : IsTail tail) (hne : part ≠ []) :
    (Decimal.read (whole ++ '.' :: (part ++ tail))).isSome = true := by
  have hpoint : ∀ c rest, '.' :: (part ++ tail) = c :: rest → c.isDigit = false :=
    fun c rest he => (List.cons.inj he).1 ▸ rfl
  obtain ⟨htake, hdrop⟩ := takeWhile_digits hw hpoint
  obtain ⟨htake', hdrop'⟩ := takeWhile_digits hp ht.not_isDigit
  unfold Decimal.read
  rw [htake, hdrop]
  simp only [htake', hdrop']
  simp [hne, ht.readable]

/-- A point counts only with digits behind it. -/
theorem fractionLength_cases (cs : List Char) : fractionLength cs = 0 ∨
    ∃ ds, cs = '.' :: ds ∧ digitCount ds ≠ 0 ∧ fractionLength cs = digitCount ds + 1 := by
  unfold fractionLength
  split
  next ds =>
    split
    · exact .inl rfl
    next hd => exact .inr ⟨ds, rfl, hd, rfl⟩
  · exact .inl rfl

/-- What is scanned as a number can be read as one. -/
theorem read_numberLength {cs : List Char} (h : numberLength cs ≠ 0) :
    (Decimal.read (cs.take (numberLength cs))).isSome = true := by
  obtain ⟨hpos, hlen⟩ : digitCount cs + fractionLength (cs.dropWhile Char.isDigit) ≠ 0 ∧
      numberLength cs = digitCount cs + fractionLength (cs.dropWhile Char.isDigit) +
        exponentLength (cs.drop (digitCount cs + fractionLength (cs.dropWhile Char.isDigit))) := by
    simp only [numberLength, drop_digitCount] at h ⊢
    split at h
    · exact absurd rfl h
    next hpos => exact ⟨hpos, if_neg hpos⟩
  rw [hlen, List.take_add, List.take_add, take_digitCount, drop_digitCount, List.append_assoc]
  have htail := isTail_exponent
    (cs.drop (digitCount cs + fractionLength (cs.dropWhile Char.isDigit)))
  rcases fractionLength_cases (cs.dropWhile Char.isDigit) with hf | ⟨ds, hds, hd, hf⟩
  · rw [hf, List.take_zero, List.nil_append]
    rw [hf] at htail hpos
    exact read_isSome (all_takeWhile cs) htail
      fun hnil => hpos (by rw [digitCount, hnil, List.length_nil])
  · rw [hf, hds, List.take_succ_cons, take_digitCount, List.cons_append]
    rw [hf] at htail
    exact read_point_isSome (all_takeWhile cs) (all_takeWhile ds) htail
      fun hnil => hd (by rw [digitCount, hnil, List.length_nil])

theorem symbol_ne {cs : List Char} {found : TokenKind × Nat} (h : symbol cs = some found) :
    found.1 ≠ .number ∧ found.1 ≠ .name := by
  have hsingle : ∀ {c : Char} {kind : TokenKind}, single c = some kind →
      kind ≠ .number ∧ kind ≠ .name := by
    intro c kind hs
    unfold single at hs
    split at hs <;> cases hs <;> decide
  have hdouble : ∀ {c : Char} {kind : TokenKind}, withEquals c = some kind →
      kind ≠ .number ∧ kind ≠ .name := by
    intro c kind hs
    unfold withEquals at hs
    split at hs <;> cases hs <;> decide
  unfold symbol at h
  split at h
  · split at h
    next kind hk =>
      obtain rfl := Option.some.inj h
      exact hdouble hk
    next =>
      obtain ⟨kind, hk, rfl⟩ := Option.map_eq_some_iff.mp h
      exact hsingle hk
  · obtain ⟨kind, hk, rfl⟩ := Option.map_eq_some_iff.mp h
    exact hsingle hk
  · cases h

theorem nameKind_ne_number (text : List Char) : nameKind text ≠ .number := by
  unfold nameKind
  repeat' split
  all_goals decide

theorem longest_number {cs : List Char} {length : Nat} (h : longest cs = some (.number, length)) :
    length = numberLength cs ∧ numberLength cs ≠ 0 := by
  unfold longest at h
  split at h
  next hn => exact ⟨(Prod.mk.inj (Option.some.inj h)).2.symm, hn⟩
  · split at h
    · exact absurd (Prod.mk.inj (Option.some.inj h)).1 (nameKind_ne_number _)
    · exact absurd rfl (symbol_ne h).1

/-- What holds of the longest token at every place holds of all tokens of a text. -/
theorem forall_mem_scan {P : Token → Prop}
    (hP : ∀ offset cs kind length, longest cs = some (kind, length) →
      P ⟨kind, String.ofList (cs.take length), offset⟩)
    {skip offset : Nat} {cs : List Char} {ts : List Token} (h : scan skip offset cs = .ok ts) :
    ∀ t ∈ ts, P t := by
  induction cs generalizing skip offset ts with
  | nil =>
    cases skip <;> obtain rfl := Except.ok.inj h <;> simp
  | cons c cs ih =>
    cases skip with
    | succ skip => exact ih h
    | zero =>
      rw [scan] at h
      split at h
      · exact ih h
      · split at h
        · cases h
        next kind length hlong =>
          split at h
          · cases h
          next rest hrest =>
            obtain rfl := Except.ok.inj h
            exact List.forall_mem_cons.mpr ⟨hP _ _ _ _ hlong, ih hrest⟩

theorem readable_scan {skip offset : Nat} {cs : List Char} {ts : List Token}
    (h : scan skip offset cs = .ok ts) : ∀ t ∈ ts, t.Readable := by
  refine forall_mem_scan (fun offset cs kind length hlong hk => ?_) h
  obtain rfl : kind = .number := hk
  obtain ⟨rfl, hn⟩ := longest_number hlong
  rw [String.toList_ofList]
  exact read_numberLength hn

end Token

end DifferentialAnalyzer
