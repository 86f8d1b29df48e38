import DifferentialAnalyzer.Proofs.Expr.LongestMatch

/-! A text is scanned into blanks and longest matches. -/

namespace DifferentialAnalyzer

namespace Token

/-- A text from some offset on as it is scanned, and its tokens. -/
inductive Laid : Nat → List Char → List Token → Prop
  | nil {offset : Nat} : Laid offset [] []
  | blank {offset : Nat} {c : Char} {cs : List Char} {ts : List Token} (hc : isBlank c = true)
      (h : Laid (offset + c.utf8Size) cs ts) : Laid offset (c :: cs) ts
  | token {offset : Nat} {kind : TokenKind} {text rest : List Char} {ts : List Token}
      (hm : LongestMatch kind text rest) (h : Laid (offset + byteSize text) rest ts) :
      Laid offset (text ++ rest) (⟨kind, String.ofList text, offset⟩ :: ts)

section Scan

variable {offset : Nat} {kind : TokenKind} {text rest cs : List Char}

theorem scan_token (h : LongestMatch kind text rest) (offset : Nat) :
    scan 0 offset (text ++ rest) =
      (scan 0 (offset + byteSize text) rest).map (⟨kind, String.ofList text, offset⟩ :: ·) := by
  have hlongest := longest_eq_some_iff.mpr h
  obtain ⟨c, tail, rfl⟩ := List.exists_cons_of_ne_nil h.ne_nil
  have htake : (c :: (tail ++ rest)).take (tail.length + 1) = c :: tail :=
    @List.take_left Char (c :: tail) rest
  rw [List.cons_append] at hlongest ⊢
  simp only [scan, isBlank_of_longest hlongest, hlongest, Bool.false_eq_true, if_false,
    List.length_cons, Nat.add_sub_cancel, scan_skip, byteSize_cons, Nat.add_assoc, htake]
  cases scan 0 (offset + (c.utf8Size + byteSize tail)) rest <;> rfl

/-- What can stand at the front of a text. -/
theorem front_cases (cs : List Char) : cs = [] ∨ (∃ c rest, cs = c :: rest ∧ isBlank c = true) ∨
    (∃ kind text rest, cs = text ++ rest ∧ LongestMatch kind text rest) ∨
    ∃ c rest, cs = c :: rest ∧ isBlank c = false ∧ longest cs = none := by
  cases cs with
  | nil => exact .inl rfl
  | cons c rest =>
    right
    cases hc : isBlank c with
    | true => exact .inl ⟨c, rest, rfl, hc⟩
    | false =>
      right
      cases hl : longest (c :: rest) with
      | none => exact .inr ⟨c, rest, rfl, hc, rfl⟩
      | some found =>
        have hmatch := (longestMatch_of_longest hl).2
        exact .inl ⟨_, _, _, (List.take_append_drop _ _).symm, hmatch⟩

/-- A text can be laid out as a whole or else up to a character with which no token begins. -/
theorem scan_cases (cs : List Char) (offset : Nat) :
    (∃ ts, scan 0 offset cs = .ok ts ∧ Laid offset cs ts) ∨
    ∃ before c after ts, cs = before ++ c :: after ∧ Laid offset before ts ∧ isBlank c = false ∧
      longest (c :: after) = none ∧ scan 0 offset cs =
        .error (.invalidCharacter (String.singleton c) (offset + byteSize before)) := by
  induction hn : cs.length using Nat.strong_induction_on generalizing cs offset with
  | _ n ih =>
    subst hn
    rcases front_cases cs with rfl | ⟨b, rest, rfl, hb⟩ | ⟨kind, text, rest, rfl, hm⟩ |
      ⟨c, rest, rfl, hc, hl⟩
    · exact .inl ⟨[], rfl, .nil⟩
    · have hscan : scan 0 offset (b :: rest) = scan 0 (offset + b.utf8Size) rest := by
        rw [scan, if_pos hb]
      rw [hscan]
      rcases ih _ (Nat.lt_succ_self _) rest (offset + b.utf8Size) rfl with ⟨ts, hts, hlaid⟩ |
        ⟨before, c, after, ts, rfl, hlaid, hc, hl, herr⟩
      · exact .inl ⟨ts, hts, .blank hb hlaid⟩
      · refine .inr ⟨b :: before, c, after, ts, rfl, .blank hb hlaid, hc, hl, ?_⟩
        rw [herr, byteSize_cons, Nat.add_assoc]
    · have hlt : rest.length < (text ++ rest).length := by
        have := List.length_pos_iff.mpr hm.ne_nil
        rw [List.length_append]
        omega
      rw [scan_token hm]
      rcases ih _ hlt rest (offset + byteSize text) rfl with ⟨ts, hts, hlaid⟩ |
        ⟨before, c, after, ts, rfl, hlaid, hc, hl, herr⟩
      · exact .inl ⟨_, by rw [hts]; rfl, .token hm hlaid⟩
      · refine .inr ⟨text ++ before, c, after, _, (List.append_assoc ..).symm,
          .token (hm.cut (List.prefix_append before _)) hlaid, hc, hl, ?_⟩
        rw [herr, byteSize_append, Nat.add_assoc]
        rfl
    · refine .inr ⟨[], c, rest, [], rfl, .nil, hc, hl, ?_⟩
      simp only [scan, hc, hl, Bool.false_eq_true, if_false]
      rfl

theorem scan_of_laid {ts : List Token} (h : Laid offset cs ts) : scan 0 offset cs = .ok ts := by
  induction h with
  | nil => rfl
  | blank hc h ih => rw [scan, if_pos hc, ih]
  | token hm h ih => rw [scan_token hm, ih]; rfl

theorem scan_eq_ok_iff {ts : List Token} : scan 0 offset cs = .ok ts ↔ Laid offset cs ts := by
  refine ⟨fun h => ?_, scan_of_laid⟩
  rcases scan_cases cs offset with ⟨ts', hts', hlaid⟩ | ⟨_, _, _, _, _, _, _, _, herr⟩
  · exact Except.ok.inj (hts'.symm.trans h) ▸ hlaid
  · cases herr.symm.trans h

end Scan

/-- The byte is one of this token. -/
def Covers (t : Token) (byte : Nat) : Prop :=
  t.offset ≤ byte ∧ byte < t.offset + t.text.utf8ByteSize

namespace Laid

variable {offset : Nat} {cs : List Char} {ts : List Token}

theorem offset_le (h : Laid offset cs ts) : ∀ t ∈ ts, offset ≤ t.offset := by
  induction h with
  | nil => simp
  | blank hc h ih => exact fun t ht => Nat.le_trans (Nat.le_add_right _ _) (ih t ht)
  | token hm h ih =>
    refine List.forall_mem_cons.mpr ⟨Nat.le_refl _, fun t ht => ?_⟩
    exact Nat.le_trans (Nat.le_add_right _ _) (ih t ht)

/-- Tokens do not overlap. -/
theorem pairwise (h : Laid offset cs ts) :
    ts.Pairwise fun s t => s.offset + s.text.utf8ByteSize ≤ t.offset := by
  induction h with
  | nil => exact .nil
  | blank hc h ih => exact ih
  | token hm h ih => exact List.pairwise_cons.mpr ⟨h.offset_le, ih⟩

/-- A token stands where its offset says, and is the longest match there. -/
theorem exists_place (h : Laid offset cs ts) {t : Token} (ht : t ∈ ts) :
    ∃ before after, cs = before ++ (t.text.toList ++ after) ∧ offset + byteSize before = t.offset ∧
      LongestMatch t.kind t.text.toList after := by
  induction h with
  | nil => cases ht
  | @blank offset c cs ts hc h ih =>
    obtain ⟨before, after, rfl, hoffset, hmatch⟩ := ih ht
    exact ⟨c :: before, after, rfl, by rw [byteSize_cons, ← hoffset, Nat.add_assoc], hmatch⟩
  | @token offset kind text rest ts hm h ih =>
    rcases List.mem_cons.mp ht with rfl | ht
    · exact ⟨[], rest, by rw [String.toList_ofList, List.nil_append], rfl,
        by rwa [String.toList_ofList]⟩
    · obtain ⟨before, after, rfl, hoffset, hmatch⟩ := ih ht
      exact ⟨text ++ before, after, by rw [List.append_assoc],
        by rw [byteSize_append, ← hoffset, Nat.add_assoc], hmatch⟩

/-- A character is blank or part of a token. -/
theorem isBlank_or_covers (h : Laid offset cs ts) {before after : List Char} {c : Char}
    (hcs : cs = before ++ c :: after) :
    isBlank c = true ∨ ∃ t ∈ ts, t.Covers (offset + byteSize before) := by
  induction h generalizing before with
  | nil => simp at hcs
  | @blank offset b cs ts hc h ih =>
    cases before with
    | nil => exact .inl ((List.cons.inj hcs).1 ▸ hc)
    | cons b' before =>
      obtain ⟨rfl, hrest⟩ := List.cons.inj hcs
      rw [byteSize_cons, ← Nat.add_assoc]
      exact ih hrest
  | @token offset kind text rest ts hm h ih =>
    have hlater {gap : List Char} (hrest : rest = gap ++ c :: after) : isBlank c = true ∨
        ∃ t ∈ (⟨kind, String.ofList text, offset⟩ :: ts : List Token),
          t.Covers (offset + byteSize (text ++ gap)) := by
      rw [byteSize_append, ← Nat.add_assoc]
      exact (ih hrest).imp_right fun ⟨t, ht, hcovers⟩ => ⟨t, List.mem_cons_of_mem _ ht, hcovers⟩
    rcases List.append_eq_append_iff.mp hcs with ⟨gap, rfl, hrest⟩ | ⟨part, rfl, hrest⟩
    · exact hlater hrest
    · cases part with
      | nil =>
        simpa only [List.append_nil] using @hlater [] hrest.symm
      | cons d part =>
        obtain ⟨rfl, -⟩ := List.cons.inj hrest
        refine .inr ⟨_, List.mem_cons_self, Nat.le_add_right _ _, ?_⟩
        have hpos : 0 < c.utf8Size := Char.utf8Size_pos c
        change _ < offset + byteSize (before ++ c :: part)
        rw [byteSize_append, byteSize_cons]
        omega

/-- A text can be cut between any two of its tokens, right before the second. -/
theorem cut {pre post : List Token} (h : Laid offset cs (pre ++ post)) :
    ∃ front back, cs = front ++ back ∧ Laid offset front pre ∧
      Laid (offset + byteSize front) back post := by
  generalize hts : pre ++ post = ts at h
  induction h generalizing pre with
  | nil =>
    obtain ⟨rfl, rfl⟩ := List.append_eq_nil_iff.mp hts
    exact ⟨[], [], rfl, .nil, .nil⟩
  | @blank offset c cs ts hc h ih =>
    obtain ⟨front, back, rfl, hfront, hback⟩ := ih hts
    refine ⟨c :: front, back, rfl, .blank hc hfront, ?_⟩
    rwa [byteSize_cons, ← Nat.add_assoc]
  | @token offset kind text rest ts hm h ih =>
    cases pre with
    | nil =>
      obtain rfl : post = _ := hts
      exact ⟨[], text ++ rest, rfl, .nil, .token hm h⟩
    | cons t pre =>
      obtain ⟨rfl, hts'⟩ := List.cons.inj hts
      obtain ⟨front, back, rfl, hfront, hback⟩ := ih hts'
      refine ⟨text ++ front, back, (List.append_assoc ..).symm,
        .token (hm.cut (List.prefix_append front back)) hfront, ?_⟩
      rwa [byteSize_append, ← Nat.add_assoc]

/-- Texts can be put together where the second begins with a blank. -/
theorem append {front back : List Char} {pre post : List Token} (h : Laid offset front pre)
    (hback : Laid (offset + byteSize front) back post)
    (hblank : ∀ c tail, back = c :: tail → isBlank c = true) :
    Laid offset (front ++ back) (pre ++ post) := by
  induction h with
  | nil => exact hback
  | blank hc h ih =>
    rw [byteSize_cons, ← Nat.add_assoc] at hback
    exact .blank hc (ih hback)
  | token hm h ih =>
    rw [byteSize_append, ← Nat.add_assoc] at hback
    rw [List.append_assoc]
    exact .token (hm.extend hblank) (ih hback)

theorem blanks {gap : List Char} (hgap : ∀ c ∈ gap, isBlank c = true)
    (h : Laid (offset + byteSize gap) cs ts) : Laid offset (gap ++ cs) ts := by
  induction gap generalizing offset with
  | nil => exact h
  | cons c gap ih =>
    rw [byteSize_cons, ← Nat.add_assoc] at h
    obtain ⟨hc, hgap⟩ := List.forall_mem_cons.mp hgap
    exact .blank hc (ih hgap h)

end Laid

/-- Texts of tokens with something blank between each two of them. -/
inductive Joined : List Token → List Char → Prop
  | nil : Joined [] []
  | last (t : Token) : Joined [t] t.text.toList
  | more (t : Token) {gap cs : List Char} {ts : List Token} (hne : gap ≠ [])
      (hgap : ∀ c ∈ gap, isBlank c = true) (h : Joined ts cs) :
      Joined (t :: ts) (t.text.toList ++ (gap ++ cs))

/-- Tokens that differ in no more than where they stand. -/
def Alike (s t : Token) : Prop :=
  s.kind = t.kind ∧ s.text = t.text

theorem alike_of (t : Token) (offset : Nat) :
    Alike ⟨t.kind, String.ofList t.text.toList, offset⟩ t :=
  ⟨rfl, String.ofList_toList⟩

/-- Tokens of one text, joined, are the tokens of the text that results. -/
theorem Joined.laid {ts : List Token} {cs : List Char} (h : Joined ts cs)
    (hts : ∀ t ∈ ts, LongestMatch t.kind t.text.toList []) (offset : Nat) :
    ∃ us, Laid offset cs us ∧ List.Forall₂ Alike us ts := by
  induction h generalizing offset with
  | nil => exact ⟨[], .nil, .nil⟩
  | last t =>
    have ht := @Laid.token offset _ _ [] [] (hts t List.mem_cons_self) .nil
    rw [List.append_nil] at ht
    exact ⟨_, ht, .cons (alike_of t offset) .nil⟩
  | @more t gap cs ts hne hgap h ih =>
    obtain ⟨ht, hts⟩ := List.forall_mem_cons.mp hts
    obtain ⟨us, hus, halike⟩ := ih hts (offset + byteSize t.text.toList + byteSize gap)
    have hblank : ∀ c tail, gap ++ cs = c :: tail → isBlank c = true := by
      intro c tail he
      obtain ⟨d, gap, rfl⟩ := List.exists_cons_of_ne_nil hne
      exact (List.cons.inj he).1 ▸ hgap d List.mem_cons_self
    exact ⟨_, .token (ht.extend hblank) (hus.blanks hgap), .cons (alike_of t offset) halike⟩

/-- Tokens cut a text into longest matches and what is blank between them, and they stay the same
however far they are moved apart. -/
structure Tokenized (src : String) (ts : List Token) : Prop where
  ordered : ts.Pairwise fun s t =>
    s.offset < t.offset ∧ s.offset + s.text.utf8ByteSize ≤ t.offset
  sliced : ∀ t ∈ ts, ∃ before after : String, src = before ++ t.text ++ after ∧
    before.utf8ByteSize = t.offset ∧ LongestMatch t.kind t.text.toList after.toList
  blank : ∀ (before after : String) (c : Char), src = before ++ String.singleton c ++ after →
    (∃ t ∈ ts, t.Covers before.utf8ByteSize) ∨ c ∈ [' ', '\t', '\r', '\n', '\x0c']
  rejoined : ∀ cs, Joined ts cs →
    ∃ us, tokenize (String.ofList cs) = .ok us ∧ List.Forall₂ Alike us ts

theorem tokenize_eq_ok_iff {src : String} {ts : List Token} :
    tokenize src = .ok ts ↔ Laid 0 src.toList ts :=
  scan_eq_ok_iff

theorem byteSize_toList (s : String) : byteSize s.toList = s.utf8ByteSize := by
  rw [byteSize, String.ofList_toList]

theorem Laid.tokenized {src : String} {ts : List Token} (h : Laid 0 src.toList ts) :
    Tokenized src ts where
  ordered := by
    refine h.pairwise.imp_of_mem fun {s t} hs _ hst => ⟨?_, hst⟩
    obtain ⟨before, after, -, -, hmatch⟩ := h.exists_place hs
    have hpos : 0 < s.text.utf8ByteSize := by
      refine Nat.pos_of_ne_zero fun h0 => hmatch.ne_nil ?_
      rw [String.utf8ByteSize_eq_zero_iff.mp h0]
      rfl
    omega
  sliced t ht := by
    obtain ⟨before, after, hsrc, hoffset, hmatch⟩ := h.exists_place ht
    refine ⟨String.ofList before, String.ofList after, ?_, ?_, ?_⟩
    · rw [← String.toList_inj, hsrc]
      simp
    · rw [← hoffset, Nat.zero_add, byteSize]
    · rwa [String.toList_ofList]
  blank before after c hsrc := by
    have hcs : src.toList = before.toList ++ c :: after.toList := by
      rw [hsrc]
      simp
    rcases h.isBlank_or_covers hcs with hc | hcovers
    · exact .inr (isBlank_iff_mem.mp hc)
    · rw [Nat.zero_add, byteSize_toList] at hcovers
      exact .inl hcovers
  rejoined cs hcs := by
    have halone : ∀ t ∈ ts, LongestMatch t.kind t.text.toList [] := by
      intro t ht
      obtain ⟨before, after, -, -, hmatch⟩ := h.exists_place ht
      exact hmatch.cut (List.nil_prefix)
    obtain ⟨us, hus, halike⟩ := hcs.laid halone 0
    refine ⟨us, tokenize_eq_ok_iff.mpr ?_, halike⟩
    rwa [String.toList_ofList]

/-- A text is cut into its tokens, or into those before a character with which none begins. -/
theorem tokenize_cases (src : String) :
    (∃ ts, tokenize src = .ok ts ∧ Tokenized src ts) ∨
    ∃ (before after : String) (c : Char) (ts : List Token),
      src = before ++ String.singleton c ++ after ∧
      tokenize src = .error (.invalidCharacter (String.singleton c) before.utf8ByteSize) ∧
      c ∉ [' ', '\t', '\r', '\n', '\x0c'] ∧
      (∀ (kind : TokenKind) (p : List Char), p <+: c :: after.toList → p ∉ kind.pattern) ∧
      tokenize before = .ok ts := by
  rcases scan_cases src.toList 0 with ⟨ts, hts, hlaid⟩ |
    ⟨before, c, after, ts, hsrc, hlaid, hc, hlongest, herr⟩
  · exact .inl ⟨ts, hts, hlaid.tokenized⟩
  · refine .inr ⟨String.ofList before, String.ofList after, c, ts, ?_, ?_, ?_, ?_, ?_⟩
    · rw [← String.toList_inj, hsrc]
      simp
    · rw [tokenize, herr, Nat.zero_add, byteSize]
    · rw [← isBlank_iff_mem, hc]
      exact Bool.false_ne_true
    · rw [String.toList_ofList]
      exact not_mem_of_longest_eq_none hlongest
    · rw [tokenize_eq_ok_iff, String.toList_ofList]
      exact hlaid

/-- A point or an exponent without digits is no part of the number before it. -/
example : (tokenize "1e+sums>==.5e2").map (·.map (·.text)) =
    .ok ["1", "e", "+", "sums", ">=", "=", ".5e2"] := by
  decide +kernel

end Token

end DifferentialAnalyzer
