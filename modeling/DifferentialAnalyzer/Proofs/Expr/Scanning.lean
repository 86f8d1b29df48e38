import DifferentialAnalyzer.Proofs.Expr.ParserCompleteness
import DifferentialAnalyzer.Proofs.Decimal.Displayed

/-! Scanning a text piece by piece. A piece is one token if it does not go on in what follows it. -/

namespace DifferentialAnalyzer

open Document.Numeral (fractionText)

namespace Token

/-- Wherever the text starts, it is scanned, and its tokens are as asked. -/
def Scans (cs : List Char) (P : List Token → Prop) : Prop :=
  ∀ offset, ∃ ts, scan 0 offset cs = .ok ts ∧ P ts

theorem scans_nil : Scans [] (· = []) :=
  fun _ => ⟨[], rfl, rfl⟩

theorem Scans.imp {cs : List Char} {P Q : List Token → Prop} (h : Scans cs P)
    (hPQ : ∀ ts, P ts → Q ts) : Scans cs Q := by
  intro offset
  obtain ⟨ts, hts, hP⟩ := h offset
  exact ⟨ts, hts, hPQ ts hP⟩

theorem Scans.blank {cs : List Char} {P : List Token → Prop} (h : Scans cs P) :
    Scans (' ' :: cs) P :=
  fun offset => h (offset + ' '.utf8Size)

/-- The bytes that characters take in a text. -/
def byteSize (cs : List Char) : Nat :=
  (String.ofList cs).utf8ByteSize

theorem byteSize_append (cs ds : List Char) : byteSize (cs ++ ds) = byteSize cs + byteSize ds := by
  rw [byteSize, String.ofList_append, String.utf8ByteSize_append]
  rfl

theorem byteSize_cons (c : Char) (cs : List Char) :
    byteSize (c :: cs) = c.utf8Size + byteSize cs := by
  rw [← List.singleton_append, byteSize_append, ← String.utf8ByteSize_singleton]
  rfl

theorem scan_skip (cs rest : List Char) (offset : Nat) :
    scan cs.length offset (cs ++ rest) = scan 0 (offset + byteSize cs) rest := by
  induction cs generalizing offset with
  | nil => rfl
  | cons c cs ih =>
    rw [byteSize_cons, ← Nat.add_assoc, ← ih]
    rfl

/-- A sign that goes on with no equals sign. -/
theorem symbol_cons {c : Char} (h : withEquals c = none) (cs : List Char) :
    symbol (c :: cs) = (single c).map (·, 1) := by
  unfold symbol
  split
  next heq =>
    obtain ⟨rfl, -⟩ := List.cons.inj heq
    rw [h]
  next heq =>
    obtain ⟨rfl, -⟩ := List.cons.inj heq
    rfl
  next heq => cases heq

theorem isBlank_iff_mem {c : Char} : isBlank c = true ↔ c ∈ [' ', '\t', '\r', '\n', '\x0c'] := by
  simp [isBlank, or_assoc]

/-- A blank character begins no token. -/
theorem isBlank_of_longest {c : Char} {cs : List Char} {found : TokenKind × Nat}
    (h : longest (c :: cs) = some found) : isBlank c = false := by
  by_contra hb
  rw [Bool.not_eq_false, isBlank_iff_mem] at hb
  have hnone : longest (c :: cs) = none := by
    simp only [List.mem_cons, List.not_mem_nil, or_false] at hb
    rcases hb with rfl | rfl | rfl | rfl | rfl <;> exact symbol_cons rfl cs
  rw [hnone] at h
  cases h

/-- A token and its text. -/
structure Is (t : Token) (kind : TokenKind) (text : List Char) : Prop where
  kind : t.kind = kind
  text : t.text = String.ofList text

theorem Scans.token {kind : TokenKind} {cs rest : List Char} {P : List Token → Prop}
    (hne : cs ≠ []) (hlong : longest (cs ++ rest) = some (kind, cs.length)) (h : Scans rest P) :
    Scans (cs ++ rest) fun ts => ∃ t us, ts = t :: us ∧ t.Is kind cs ∧ P us := by
  intro offset
  obtain ⟨c, cs, rfl⟩ := List.exists_cons_of_ne_nil hne
  obtain ⟨us, hus, hP⟩ := h (offset + c.utf8Size + byteSize cs)
  rw [← scan_skip] at hus
  refine ⟨⟨kind, String.ofList (c :: cs), offset⟩ :: us, ?_, _, us, rfl, ⟨rfl, rfl⟩, hP⟩
  have htake : (c :: (cs ++ rest)).take (c :: cs).length = c :: cs := List.take_left
  rw [List.cons_append] at hlong ⊢
  simp only [scan, isBlank_of_longest hlong, hlong, List.length_cons, Nat.add_sub_cancel, hus]
  rw [← htake]
  rfl

theorem longest_single {c : Char} {kind : TokenKind} (hs : single c = some kind)
    (he : withEquals c = none) (rest : List Char) : longest (c :: rest) = some (kind, 1) := by
  have hsymbol : longest (c :: rest) = symbol (c :: rest) := by
    unfold single at hs
    split at hs <;> first | rfl | cases hs
  rw [hsymbol, symbol_cons he, hs]
  rfl

theorem Scans.single {cs : List Char} {P : List Token → Prop} (h : Scans cs P) (c : Char)
    {kind : TokenKind} (hs : Token.single c = some kind) (he : withEquals c = none) :
    Scans (c :: cs) fun ts => ∃ t us, ts = t :: us ∧ t.Is kind [c] ∧ P us :=
  @Scans.token kind [c] cs P (List.cons_ne_nil c []) (longest_single hs he cs) h

/-- The blank is needed: two equals signs are one token. -/
theorem Scans.assign {cs : List Char} {P : List Token → Prop} (h : Scans (' ' :: cs) P) :
    Scans ('=' :: ' ' :: cs) fun ts => ∃ t us, ts = t :: us ∧ t.Is .assign ['='] ∧ P us :=
  @Scans.token .assign ['='] (' ' :: cs) P (List.cons_ne_nil _ []) rfl h

/-- Nothing that stands here goes on a name or a number. -/
def Ends (cs : List Char) : Prop :=
  ∀ c rest, cs = c :: rest → continuesName c = false ∧ c ≠ '.'

theorem ends_nil : Ends [] := by
  rintro c rest ⟨⟩

theorem ends_cons {c : Char} (h : continuesName c = false ∧ c ≠ '.') (rest : List Char) :
    Ends (c :: rest) := by
  rintro c rest ⟨⟩
  exact h

theorem isDigit_of_not_continuesName {c : Char} (h : continuesName c = false) :
    c.isDigit = false := by
  simp only [continuesName, Char.isAlphanum, Bool.or_eq_false_iff] at h
  exact h.1.2

theorem isDigit_of_startsName {c : Char} (h : startsName c = true) : c.isDigit = false := by
  by_contra hd
  have hdigit : c.val ≤ 57 := by
    simp only [Bool.not_eq_false, Char.isDigit, Bool.and_eq_true, decide_eq_true_eq] at hd
    exact hd.2
  simp only [startsName, Char.isAlpha, Char.isUpper, Char.isLower, Bool.or_eq_true,
    Bool.and_eq_true, decide_eq_true_eq, beq_iff_eq] at h
  rcases h with (⟨hupper, -⟩ | ⟨hlower, -⟩) | rfl
  · exact absurd (UInt32.le_trans hupper hdigit) (by decide)
  · exact absurd (UInt32.le_trans hlower hdigit) (by decide)
  · exact absurd hdigit (by decide)

theorem exponentLength_of_ends {cs : List Char} (h : Ends cs) : exponentLength cs = 0 := by
  cases cs with
  | nil => rfl
  | cons c cs =>
    obtain ⟨hc, -⟩ := h c cs rfl
    have he : c ≠ 'e' := by
      rintro rfl
      cases hc
    have hE : c ≠ 'E' := by
      rintro rfl
      cases hc
    simp [exponentLength, he, hE]

theorem fractionLength_of_ne {cs : List Char} (h : ∀ c rest, cs = c :: rest → c ≠ '.') :
    fractionLength cs = 0 := by
  unfold fractionLength
  split
  next ds => exact absurd rfl (h '.' ds rfl)
  · rfl

theorem digitCount_append {ds rest : List Char} (h : ∀ c ∈ ds, c.isDigit = true)
    (hrest : ∀ c tail, rest = c :: tail → c.isDigit = false) :
    digitCount (ds ++ rest) = ds.length := by
  rw [digitCount, (takeWhile_digits (List.all_eq_true.mpr h) hrest).1]

theorem numberLength_plain {whole : List Char} {fraction : Option (List Char)}
    (h : Decimal.Plain whole fraction) {rest : List Char} (hrest : Ends rest) :
    numberLength (whole ++ fractionText fraction ++ rest) =
      (whole ++ fractionText fraction).length := by
  have hpos : whole.length ≠ 0 := fun h0 => h.whole.1 (List.length_eq_zero_iff.mp h0)
  have hends : ∀ c tail, rest = c :: tail → c.isDigit = false := fun c tail he =>
    isDigit_of_not_continuesName (hrest c tail he).1
  cases fraction with
  | none =>
    have hfraction := fractionLength_of_ne fun c tail he => (hrest c tail he).2
    simp [numberLength, fractionText, digitCount_append h.whole.2 hends, hfraction, hpos,
      exponentLength_of_ends hrest]
  | some ds =>
    have hpoint : ∀ c tail, '.' :: (ds ++ rest) = c :: tail → c.isDigit = false := by
      rintro c tail ⟨⟩
      rfl
    have hds : ds.length ≠ 0 := fun h0 => (h.fraction ds rfl).1 (List.length_eq_zero_iff.mp h0)
    have hfraction : fractionLength ('.' :: (ds ++ rest)) = ds.length + 1 := by
      rw [fractionLength, digitCount_append (h.fraction ds rfl).2 hends, if_neg hds]
    have hdrop : (whole ++ '.' :: (ds ++ rest)).drop (whole.length + (ds.length + 1)) = rest := by
      rw [← List.drop_drop, List.drop_left, List.drop_succ_cons, List.drop_left]
    simp [numberLength, fractionText, digitCount_append h.whole.2 hpoint, hfraction, hpos,
      exponentLength_of_ends hrest, hdrop]

theorem longest_plain {whole : List Char} {fraction : Option (List Char)}
    (h : Decimal.Plain whole fraction) {rest : List Char} (hrest : Ends rest) :
    longest (whole ++ fractionText fraction ++ rest) =
      some (.number, (whole ++ fractionText fraction).length) := by
  have hlength := numberLength_plain h hrest
  have hne : numberLength (whole ++ fractionText fraction ++ rest) ≠ 0 := by
    rw [hlength, List.length_append]
    have := List.length_pos_iff.mpr h.whole.1
    omega
  rw [longest, if_pos hne, hlength]

/-- A letter or an underscore, and behind it digits as well. -/
def IsWord (text : List Char) : Prop :=
  ∃ c cs, text = c :: cs ∧ startsName c = true ∧ ∀ d ∈ cs, continuesName d = true

theorem longest_word {text : List Char} (h : IsWord text) {rest : List Char} (hrest : Ends rest) :
    longest (text ++ rest) = some (nameKind text, text.length) := by
  obtain ⟨c, cs, rfl, hc, hcs⟩ := h
  have hpoint : c ≠ '.' := by
    rintro rfl
    cases hc
  have hnumber : numberLength (c :: (cs ++ rest)) = 0 := by
    have hfraction : fractionLength (c :: (cs ++ rest)) = 0 :=
      fractionLength_of_ne fun d tail he => (List.cons.inj he).1 ▸ hpoint
    simp [numberLength, digitCount, isDigit_of_startsName hc, hfraction]
  have htake : (cs ++ rest).takeWhile continuesName = cs := by
    rw [List.takeWhile_append_of_pos hcs]
    cases rest with
    | nil => simp
    | cons d rest => simp [(hrest d rest rfl).1]
  have hname : nameLength (c :: (cs ++ rest)) = (c :: cs).length := by
    simp [nameLength, hc, htake]
  have hcut : (c :: (cs ++ rest)).take (c :: cs).length = c :: cs := List.take_left
  rw [List.cons_append, longest, if_neg (by simp [hnumber]), hname, if_pos (by simp), hcut]

theorem isWord_nameLength {cs : List Char} (h : nameLength cs ≠ 0) :
    IsWord (cs.take (nameLength cs)) := by
  cases cs with
  | nil => exact absurd rfl h
  | cons c cs =>
    by_cases hc : startsName c = true
    · have htake : cs.takeWhile continuesName = cs.take (cs.takeWhile continuesName).length :=
        List.prefix_iff_eq_take.mp (List.takeWhile_prefix continuesName)
      refine ⟨c, cs.takeWhile continuesName, ?_, hc, fun d hd => List.mem_takeWhile_imp hd⟩
      rw [nameLength, if_pos hc, List.take_succ_cons, ← htake]
    · exact absurd (by rw [nameLength, if_neg hc]) h

/-- If it is a name, its text is one. -/
def Named (t : Token) : Prop :=
  t.kind = .name → IsWord t.text.toList ∧ nameKind t.text.toList = .name

theorem named_scan {skip offset : Nat} {cs : List Char} {ts : List Token}
    (h : scan skip offset cs = .ok ts) : ∀ t ∈ ts, t.Named := by
  refine forall_mem_scan (fun offset cs kind length hlong hk => ?_) h
  obtain rfl : kind = .name := hk
  rw [String.toList_ofList]
  unfold longest at hlong
  split at hlong
  · cases hlong
  · split at hlong
    next hname =>
      obtain ⟨hkind, rfl⟩ := Prod.mk.inj (Option.some.inj hlong)
      exact ⟨isWord_nameLength hname, hkind⟩
    · exact absurd rfl (symbol_ne hlong).2

end Token

end DifferentialAnalyzer
