import DifferentialAnalyzer.Proofs.Expr.Patterns

/-! What the scan takes at a place is the longest text there that any pattern has, and of two
patterns with that text the one of a keyword counts. Numbers, words and signs begin with different
characters, so that only patterns of one sort compete. -/

namespace DifferentialAnalyzer

namespace Token

section Heads

variable {kind : TokenKind} {c : Char} {cs : List Char}

theorem head_of_number (h : c :: cs ∈ TokenKind.number.pattern) : c.isDigit = true ∨ c = '.' := by
  obtain ⟨whole, f, x, he, hwhole, hf, hx, hne⟩ := mem_number_iff.mp h
  cases whole with
  | cons d whole =>
    obtain ⟨rfl, -⟩ := List.cons.inj he
    exact .inl (hwhole c List.mem_cons_self)
  | nil =>
    obtain ⟨ds, rfl, -⟩ := mem_fraction_iff.mp (hf.resolve_left (hne.resolve_left fun h => h rfl))
    exact .inr (List.cons.inj he).1

theorem head_of_isVerbal (hk : IsVerbal kind) (h : c :: cs ∈ kind.pattern) :
    startsName c = true := by
  obtain ⟨d, rest, he, hd, -⟩ := isWord_of_isVerbal hk h
  exact (List.cons.inj he).1 ▸ hd

theorem sign_ne {c : Char} (h : single c = some kind ∨ withEquals c = some kind) :
    ¬ (c.isDigit = true ∨ c = '.') ∧ startsName c = false := by
  unfold single withEquals at h
  rcases h with h | h <;> split at h <;> cases h <;> decide

theorem isBlank_of_sign {c : Char} (h : single c = some kind ∨ withEquals c = some kind) :
    isBlank c = false := by
  unfold single withEquals at h
  rcases h with h | h <;> split at h <;> cases h <;> rfl

/-- A text that begins like a number is that of no other token. -/
theorem eq_number_of_head (h : c :: cs ∈ kind.pattern) (hc : c.isDigit = true ∨ c = '.') :
    kind = .number := by
  by_contra hn
  by_cases hw : IsVerbal kind
  · have hstart := head_of_isVerbal hw h
    rcases hc with hdigit | rfl
    · rw [isDigit_of_startsName hstart] at hdigit
      cases hdigit
    · cases hstart
  · obtain ⟨d, ⟨hs, he⟩ | ⟨hs, he⟩⟩ := sign_of_mem hn hw h
    · exact (sign_ne (.inl hs)).1 ((List.cons.inj he).1 ▸ hc)
    · exact (sign_ne (.inr hs)).1 ((List.cons.inj he).1 ▸ hc)

/-- A text that begins like a name is a word. -/
theorem isVerbal_of_head (h : c :: cs ∈ kind.pattern) (hc : startsName c = true) :
    IsVerbal kind := by
  by_contra hw
  by_cases hn : kind = .number
  · subst hn
    rcases head_of_number h with hdigit | rfl
    · rw [isDigit_of_startsName hc] at hdigit
      cases hdigit
    · cases hc
  · obtain ⟨d, ⟨hs, he⟩ | ⟨hs, he⟩⟩ := sign_of_mem hn hw h
    · rw [(List.cons.inj he).1, (sign_ne (.inl hs)).2] at hc
      cases hc
    · rw [(List.cons.inj he).1, (sign_ne (.inr hs)).2] at hc
      cases hc

theorem ne_nil_of_mem_pattern (h : cs ∈ kind.pattern) : cs ≠ [] := by
  rintro rfl
  by_cases hn : kind = .number
  · subst hn
    obtain ⟨whole, f, x, he, -, -, -, hne⟩ := mem_number_iff.mp h
    obtain ⟨rfl, hfx⟩ := List.append_eq_nil_iff.mp he.symm
    exact hne.elim (fun h => h rfl) fun h => h (List.append_eq_nil_iff.mp hfx).1
  · by_cases hw : IsVerbal kind
    · obtain ⟨c, rest, he, -⟩ := isWord_of_isVerbal hw h
      cases he
    · obtain ⟨c, ⟨-, he⟩ | ⟨-, he⟩⟩ := sign_of_mem hn hw h <;> cases he

theorem isBlank_of_continuesName {c : Char} (h : continuesName c = true) : isBlank c = false := by
  by_contra hb
  rw [Bool.not_eq_false, isBlank_iff_mem] at hb
  simp only [List.mem_cons, List.not_mem_nil, or_false] at hb
  rcases hb with rfl | rfl | rfl | rfl | rfl <;> cases h

theorem continuesName_of_isDigit {c : Char} (h : c.isDigit = true) : continuesName c = true := by
  simp [continuesName, Char.isAlphanum, h]

theorem continuesName_of_startsName {c : Char} (h : startsName c = true) :
    continuesName c = true := by
  rw [startsName, Bool.or_eq_true] at h
  rcases h with h | h <;> simp [continuesName, Char.isAlphanum, h]

theorem isBlank_of_isDigits {ds : List Char} (h : ∀ d ∈ ds, d.isDigit = true) (hc : c ∈ ds) :
    isBlank c = false :=
  isBlank_of_continuesName (continuesName_of_isDigit (h c hc))

theorem isBlank_of_mem_number (h : cs ∈ TokenKind.number.pattern) (hc : c ∈ cs) :
    isBlank c = false := by
  obtain ⟨whole, f, x, rfl, hwhole, hf, hx, -⟩ := mem_number_iff.mp h
  rcases List.mem_append.mp hc with hc | hc
  · exact isBlank_of_isDigits hwhole hc
  rcases List.mem_append.mp hc with hc | hc
  · rcases hf with rfl | hf
    · cases hc
    · obtain ⟨ds, rfl, hds⟩ := mem_fraction_iff.mp hf
      rcases List.mem_cons.mp hc with rfl | hc
      · rfl
      · exact isBlank_of_isDigits hds.2 hc
  · rcases hx with rfl | hx
    · cases hc
    · obtain ⟨mark, sign, ds, rfl, hmark, hsign, hds⟩ := mem_exponent_iff.mp hx
      rcases List.mem_cons.mp hc with rfl | hc
      · rcases hmark with rfl | rfl <;> rfl
      · rcases List.mem_append.mp hc with hc | hc
        · rcases hsign with rfl | rfl | rfl
          · cases hc
          · exact List.mem_singleton.mp hc ▸ rfl
          · exact List.mem_singleton.mp hc ▸ rfl
        · exact isBlank_of_isDigits hds.2 hc

/-- No token has a blank in it. -/
theorem isBlank_of_mem_pattern (h : cs ∈ kind.pattern) (hc : c ∈ cs) : isBlank c = false := by
  by_cases hn : kind = .number
  · exact isBlank_of_mem_number (hn ▸ h) hc
  · by_cases hw : IsVerbal kind
    · obtain ⟨d, tail, rfl, hd, htail⟩ := isWord_of_isVerbal hw h
      rcases List.mem_cons.mp hc with rfl | hc
      · exact isBlank_of_continuesName (continuesName_of_startsName hd)
      · exact isBlank_of_continuesName (htail c hc)
    · obtain ⟨d, ⟨hs, rfl⟩ | ⟨he, rfl⟩⟩ := sign_of_mem hn hw h
      · exact List.mem_singleton.mp hc ▸ isBlank_of_sign (.inl hs)
      · rcases List.mem_cons.mp hc with rfl | hc
        · exact isBlank_of_sign (.inr he)
        · exact List.mem_singleton.mp hc ▸ rfl

/-- Two tokens that begin at one place share their first character. -/
theorem exists_head {kind other : TokenKind} {text rest p : List Char} (h : text ∈ kind.pattern)
    (hp : p <+: text ++ rest) (hmem : p ∈ other.pattern) :
    ∃ c tail tail', text = c :: tail ∧ p = c :: tail' := by
  obtain ⟨c, tail, rfl⟩ := List.exists_cons_of_ne_nil (ne_nil_of_mem_pattern h)
  obtain ⟨d, tail', rfl⟩ := List.exists_cons_of_ne_nil (ne_nil_of_mem_pattern hmem)
  obtain ⟨rfl, -⟩ := List.cons_prefix_cons.mp hp
  exact ⟨d, tail, tail', rfl, rfl⟩

end Heads

/-- The text at the front is the longest that any token may have there, and its kind is that of a
keyword if it is one. -/
structure LongestMatch (kind : TokenKind) (text rest : List Char) : Prop where
  found : text ∈ kind.pattern
  longest : ∀ (other : TokenKind) (p : List Char), p <+: text ++ rest → p ∈ other.pattern →
    p.length ≤ text.length
  keyword : ∀ other : TokenKind, text ∈ other.pattern →
    other = kind ∨ other = .name ∧ (kind = .sum ∨ kind = .product)

namespace LongestMatch

variable {kind : TokenKind} {text rest : List Char}

theorem ne_nil (h : LongestMatch kind text rest) : text ≠ [] :=
  ne_nil_of_mem_pattern h.found

/-- At one place there is one longest match. -/
theorem unique {kind' : TokenKind} {text' rest' : List Char} (h : LongestMatch kind text rest)
    (h' : LongestMatch kind' text' rest') (he : text ++ rest = text' ++ rest') :
    kind = kind' ∧ text = text' := by
  have hle := h.longest kind' text' (he ▸ List.prefix_append text' rest') h'.found
  have hle' := h'.longest kind text (he ▸ List.prefix_append text rest) h.found
  obtain rfl := (List.append_inj he (by omega)).1
  refine ⟨?_, rfl⟩
  rcases h.keyword kind' h'.found with rfl | ⟨rfl, hk⟩
  · rfl
  · rcases h'.keyword kind h.found with rfl | ⟨-, hk'⟩
    · rfl
    · rcases hk' with hk' | hk' <;> cases hk'

/-- It depends on nothing behind what is cut off. -/
theorem cut (h : LongestMatch kind text rest) {rest' : List Char} (hr : rest' <+: rest) :
    LongestMatch kind text rest' where
  found := h.found
  longest other p hp := h.longest other p (hp.trans (List.prefix_append_right_inj text |>.mpr hr))
  keyword := h.keyword

/-- Behind a blank nothing makes the token longer. -/
theorem extend (h : LongestMatch kind text rest) {more : List Char}
    (hmore : ∀ c tail, more = c :: tail → isBlank c = true) :
    LongestMatch kind text (rest ++ more) where
  found := h.found
  longest other p hp hmem := by
    rw [← List.append_assoc] at hp
    rcases List.prefix_or_prefix_of_prefix hp (List.prefix_append (text ++ rest) more) with
      hpre | ⟨part, rfl⟩
    · exact h.longest other p hpre hmem
    · cases part with
      | nil =>
        rw [List.append_nil] at hmem ⊢
        exact h.longest other _ List.prefix_rfl hmem
      | cons c part =>
        -- The blank would be part of the longer match.
        obtain ⟨tail, hr⟩ := (List.prefix_append_right_inj (text ++ rest)).mp hp
        have hblank := hmore c (part ++ tail) hr.symm
        rw [isBlank_of_mem_pattern hmem (by simp)] at hblank
        cases hblank
  keyword := h.keyword

theorem of_number (hfound : text ∈ TokenKind.number.pattern)
    (hlongest : ∀ p, p <+: text ++ rest → p ∈ TokenKind.number.pattern → p.length ≤ text.length) :
    LongestMatch .number text rest := by
  have hother : ∀ (other : TokenKind) (p : List Char), p <+: text ++ rest → p ∈ other.pattern →
      other = .number := by
    intro other p hp hmem
    obtain ⟨c, tail, tail', rfl, rfl⟩ := exists_head hfound hp hmem
    exact eq_number_of_head hmem (head_of_number hfound)
  exact ⟨hfound, fun other p hp hmem => hlongest p hp (hother other p hp hmem ▸ hmem),
    fun other hmem => .inl (hother other text (List.prefix_append text rest) hmem)⟩

theorem of_word (hword : IsWord text)
    (hlongest : ∀ p, p <+: text ++ rest → IsWord p → p.length ≤ text.length) :
    LongestMatch (nameKind text) text rest := by
  have hfound := mem_pattern_nameKind hword
  have hother : ∀ (other : TokenKind) (p : List Char), p <+: text ++ rest → p ∈ other.pattern →
      IsVerbal other := by
    intro other p hp hmem
    obtain ⟨c, tail, tail', rfl, rfl⟩ := exists_head hfound hp hmem
    obtain ⟨d, cs, he, hd, -⟩ := hword
    exact isVerbal_of_head hmem ((List.cons.inj he).1 ▸ hd)
  refine ⟨hfound, fun other p hp hmem =>
    hlongest p hp (isWord_of_isVerbal (hother other p hp hmem) hmem), fun other hmem => ?_⟩
  rcases hother other text (List.prefix_append text rest) hmem with rfl | hk
  · rcases nameKind_cases text with ⟨hk, -⟩ | ⟨hk, -⟩ | hk
    · exact .inr ⟨rfl, .inl hk⟩
    · exact .inr ⟨rfl, .inr hk⟩
    · exact .inl hk.symm
  · exact .inl (isWord_keyword hk hmem).2.symm

theorem of_sign {c : Char} (hsign : single c = some kind ∧ text = [c] ∧ completed c rest = none ∨
      withEquals c = some kind ∧ text = [c, '=']) : LongestMatch kind text rest := by
  obtain ⟨hnumber, hname⟩ := sign_ne (hsign.imp And.left And.left)
  have hfound : text ∈ kind.pattern := by
    rcases hsign with ⟨hs, rfl, -⟩ | ⟨he, rfl⟩
    · exact mem_single hs
    · exact mem_withEquals he
  have hother : ∀ (other : TokenKind) (p : List Char), p <+: text ++ rest → p ∈ other.pattern →
      single c = some other ∧ p = [c] ∨ withEquals c = some other ∧ p = [c, '='] := by
    intro other p hp hmem
    obtain ⟨d, tail, tail', he, rfl⟩ := exists_head hfound hp hmem
    obtain rfl : c = d := by
      rcases hsign with ⟨-, rfl, -⟩ | ⟨-, rfl⟩ <;> exact (List.cons.inj he).1
    have hn : other ≠ .number := by
      rintro rfl
      exact hnumber (head_of_number hmem)
    have hw : ¬ IsVerbal other := by
      intro hw
      rw [head_of_isVerbal hw hmem] at hname
      cases hname
    obtain ⟨d, h⟩ := sign_of_mem hn hw hmem
    obtain rfl : c = d := by
      rcases h with ⟨-, h⟩ | ⟨-, h⟩ <;> exact (List.cons.inj h).1
    exact h
  refine ⟨hfound, fun other p hp hmem => ?_, fun other hmem => ?_⟩
  · rcases hsign with ⟨-, rfl, hnone⟩ | ⟨-, rfl⟩
    · rcases hother other p hp hmem with ⟨-, rfl⟩ | ⟨he, rfl⟩
      · exact Nat.le_refl 1
      · -- An equals sign behind the character would have completed another sign.
        obtain ⟨tail, rfl⟩ : ∃ tail, rest = '=' :: tail := by
          obtain ⟨tail, ht⟩ := hp
          exact ⟨tail, (List.cons.inj ht).2.symm⟩
        rw [completed, List.head?_cons, if_pos rfl, he] at hnone
        cases hnone
    · rcases hother other p hp hmem with ⟨-, rfl⟩ | ⟨-, rfl⟩ <;> simp
  · left
    rcases hother other text (List.prefix_append text rest) hmem with ⟨hs', ht⟩ | ⟨he', ht⟩ <;>
      rcases hsign with ⟨hs, rfl, -⟩ | ⟨he, rfl⟩
    · exact Option.some.inj (hs'.symm.trans hs)
    · cases ht
    · cases ht
    · exact Option.some.inj (he'.symm.trans he)

end LongestMatch

section Longest

variable {cs : List Char} {kind : TokenKind} {n : Nat}

/-- What the scan takes at a place is the longest match there. -/
theorem longestMatch_of_longest (h : longest cs = some (kind, n)) :
    n ≤ cs.length ∧ LongestMatch kind (cs.take n) (cs.drop n) := by
  unfold longest at h
  split at h
  next hnumber =>
    obtain ⟨rfl, rfl⟩ := Prod.mk.inj (Option.some.inj h)
    refine ⟨numberLength_le_length cs, .of_number (take_numberLength hnumber) fun p hp hmem => ?_⟩
    rw [List.take_append_drop] at hp
    obtain ⟨rest, rfl⟩ := hp
    rw [List.length_take, Nat.min_eq_left (numberLength_le_length _)]
    exact length_le_numberLength hmem
  next hnumber =>
    split at h
    next hname =>
      obtain ⟨rfl, rfl⟩ := Prod.mk.inj (Option.some.inj h)
      refine ⟨nameLength_le_length cs, .of_word (isWord_nameLength hname) fun p hp hword => ?_⟩
      rw [List.take_append_drop] at hp
      obtain ⟨rest, rfl⟩ := hp
      rw [List.length_take, Nat.min_eq_left (nameLength_le_length _)]
      exact length_le_nameLength hword
    next hname =>
      cases cs with
      | nil => cases h
      | cons c rest =>
        rw [symbol_cons_eq, Option.or_eq_some_iff] at h
        rcases h with h | ⟨hnone, h⟩
        · obtain ⟨kind', hk, h⟩ := Option.map_eq_some_iff.mp h
          obtain ⟨rfl, rfl⟩ := Prod.mk.inj h
          unfold completed at hk
          split at hk
          next hhead =>
            obtain ⟨tail, rfl⟩ := List.head?_eq_some_iff.mp hhead
            exact ⟨by simp, .of_sign (.inr ⟨hk, rfl⟩)⟩
          · cases hk
        · obtain ⟨kind', hs, h⟩ := Option.map_eq_some_iff.mp h
          obtain ⟨rfl, rfl⟩ := Prod.mk.inj h
          exact ⟨by simp, .of_sign (.inl ⟨hs, rfl, Option.map_eq_none_iff.mp hnone⟩)⟩

/-- Where the scan finds nothing, no token begins. -/
theorem not_mem_of_longest_eq_none (h : longest cs = none) (other : TokenKind) (p : List Char)
    (hp : p <+: cs) : p ∉ other.pattern := by
  intro hmem
  have hpos := List.length_pos_iff.mpr (ne_nil_of_mem_pattern hmem)
  obtain ⟨rest, rfl⟩ := hp
  unfold longest at h
  split at h
  · cases h
  next hnumber =>
    split at h
    · cases h
    next hname =>
      by_cases hn : other = .number
      · subst hn
        have hle := @length_le_numberLength p rest hmem
        omega
      · by_cases hw : IsVerbal other
        · have hle := @length_le_nameLength p rest (isWord_of_isVerbal hw hmem)
          omega
        · obtain ⟨c, ⟨hs, rfl⟩ | ⟨he, rfl⟩⟩ := sign_of_mem hn hw hmem
          · rw [List.singleton_append, symbol_cons_eq, hs, Option.or_eq_none_iff] at h
            cases h.2
          · rw [List.cons_append, List.singleton_append, symbol_cons_eq, completed,
              List.head?_cons, if_pos rfl, he] at h
            cases h

/-- The scan takes the longest match at a place, and there is one if it takes any. -/
theorem longest_eq_some_iff {text rest : List Char} :
    longest (text ++ rest) = some (kind, text.length) ↔ LongestMatch kind text rest := by
  constructor
  · intro h
    have hmatch := (longestMatch_of_longest h).2
    rwa [List.take_left, List.drop_left] at hmatch
  · intro h
    cases hl : longest (text ++ rest) with
    | none =>
      exact absurd h.found (not_mem_of_longest_eq_none hl _ _ (List.prefix_append text rest))
    | some found =>
      obtain ⟨kind', n⟩ := found
      obtain ⟨hn, hmatch⟩ := longestMatch_of_longest hl
      obtain ⟨rfl, htext⟩ := h.unique hmatch (List.take_append_drop n _).symm
      rw [htext, List.length_take, Nat.min_eq_left hn]

end Longest

end Token

end DifferentialAnalyzer
