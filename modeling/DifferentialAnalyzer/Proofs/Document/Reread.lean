import DifferentialAnalyzer.Document.Json
import DifferentialAnalyzer.Proofs.Document.Numerals
import DifferentialAnalyzer.Proofs.Document.Quotes

/-! What is read of a tree that was written as JSON text: the tree itself, except that each double
becomes what its text is read as. -/

namespace DifferentialAnalyzer.Document

namespace Numeral

/-- The numeral of a whole number. -/
def ofInt (n : Int) : Numeral :=
  ⟨n < 0, Nat.toDigits 10 n.natAbs, none, none⟩

theorem proper_ofInt (n : Int) : (ofInt n).Proper :=
  ⟨isDigits_toDigits _, noPadding_toDigits _, by simp [ofInt], by simp [ofInt]⟩

theorem text_ofInt (n : Int) : (ofInt n).text = (toString n).toList := by
  cases n with
  | ofNat n =>
    have htext : (toString (Int.ofNat n)).toList = Nat.toDigits 10 n := by
      rw [show toString (Int.ofNat n) = toString n from rfl, Nat.toString_eq_ofList_toDigits,
        String.toList_ofList]
    rw [htext, text, ofInt, if_neg (by simp)]
    exact List.append_nil _
  | negSucc n =>
    have htext : (toString (Int.negSucc n)).toList = '-' :: Nat.toDigits 10 (n + 1) := by
      rw [show toString (Int.negSucc n) = "-" ++ toString (n + 1) from rfl,
        Nat.toString_eq_ofList_toDigits]
      simp
    rw [htext, text, ofInt, if_pos (by simp)]
    exact congrArg ('-' :: ·) (List.append_nil _)

theorem value_ofInt {n : Int} (h : Word.holds n = true) :
    (ofInt n).value = .number (.integer n) := by
  simp only [Word.holds, Bool.and_eq_true, decide_eq_true_eq] at h
  simp only [value, ofInt, Decimal.ofDigits_toDigits]
  by_cases hn : n < 0
  · rw [if_pos (by simpa using hn), if_pos (by simp only [Word.half] at h ⊢; omega)]
    congr 2
    omega
  · rw [if_neg (by simpa using hn), if_pos (by simp only [Word.count] at h ⊢; omega)]
    congr 2
    omega

/-- A numeral starts with a sign or a digit. -/
theorem exists_head_text {n : Numeral} (h : n.Proper) :
    ∃ c tail, n.text = c :: tail ∧ (c = '-' ∨ c.isDigit = true) := by
  cases hn : n.negative with
  | true => exact ⟨'-', _, by simp [text, hn]; rfl, .inl rfl⟩
  | false =>
    obtain ⟨c, ds, hds, hc⟩ := h.whole.exists_cons
    exact ⟨c, _, by simp [text, hn, hds]; rfl, .inr hc⟩

end Numeral

/-- What the text of a double is read as. -/
def rereadReal (x : Float) : Document :=
  match Numeral.scan (dataFloat x).toList with
  | some (n, _) => n.value
  | none => .null

mutual

/-- What a tree is read as once it was written. -/
def reread : Document → Document
  | .number (.real x) => rereadReal x
  | .list items => .list (rereadItems items)
  | .record entries => .record (rereadEntries entries)
  | d => d

def rereadItems : List Document → List Document
  | [] => []
  | d :: rest => reread d :: rereadItems rest

def rereadEntries : Entries → Entries
  | [] => []
  | (key, d) :: rest => (key, reread d) :: rereadEntries rest

end

mutual

/-- A tree without anything that the format has no form for. -/
def Written : Document → Prop
  | .null | .bool _ | .text _ | .number (.real _) => True
  | .number (.integer n) => Word.holds n = true
  | .list items => WrittenItems items
  | .record entries => WrittenEntries entries
  | _ => False

def WrittenItems : List Document → Prop
  | [] => True
  | d :: rest => Written d ∧ WrittenItems rest

def WrittenEntries : Entries → Prop
  | [] => True
  | (key, d) :: rest => (∃ s, key = .text s) ∧ Written d ∧ WrittenEntries rest

end

/-- The spelling of the format. -/
def Spelling.json : Spelling :=
  ⟨dataFloat, Document.quote⟩

section Scan

variable {rest : List Char}

theorem skipBlanks_cons {c : Char} (h : isJsonBlank c = false) (cs : List Char) :
    skipBlanks (c :: cs) = c :: cs := by
  simp [skipBlanks, h]

theorem skipBlanks_newLine (indent : Nat) (cs : List Char) :
    skipBlanks (newLine indent ++ cs) = skipBlanks cs := by
  have hline : ∀ c ∈ newLine indent, isJsonBlank c = true := by
    intro c hc
    rcases List.mem_cons.mp hc with rfl | hc
    · rfl
    · obtain rfl := List.eq_of_mem_replicate hc
      rfl
  exact List.dropWhile_append_of_pos hline

theorem scanValue_congr {cs cs' : List Char} (h : skipBlanks cs = skipBlanks cs') (fuel : Nat) :
    scanValue fuel cs = scanValue fuel cs' := by
  cases fuel with
  | zero => rfl
  | succ fuel => rw [scanValue, scanValue, h]

theorem scanItems_congr {cs cs' : List Char} (h : skipBlanks cs = skipBlanks cs') (fuel : Nat) :
    scanItems fuel cs = scanItems fuel cs' := by
  cases fuel with
  | zero => rfl
  | succ fuel => rw [scanItems, scanItems, scanValue_congr h]

theorem scanEntries_congr {cs cs' : List Char} (h : skipBlanks cs = skipBlanks cs') (fuel : Nat) :
    scanEntries fuel cs = scanEntries fuel cs' := by
  cases fuel with
  | zero => rfl
  | succ fuel => rw [scanEntries, scanEntries, h]

/-- The first character of a value. -/
structure Opens (c : Char) : Prop where
  notBlank : isJsonBlank c = false
  notClosing : c ≠ ']'

theorem Opens.number {c : Char} (h : c = '-' ∨ c.isDigit = true) : Opens c := by
  rcases h with rfl | h
  · exact ⟨rfl, by decide⟩
  · refine ⟨Bool.eq_false_iff.mpr fun hb => ?_, ?_⟩
    · simp only [isJsonBlank, Bool.or_eq_true, beq_iff_eq] at hb
      rcases hb with ((rfl | rfl) | rfl) | rfl <;> cases h
    · rintro rfl
      cases h

theorem scanScalar_numeral {n : Numeral} (h : n.Proper) (hrest : Numeral.Ends rest) :
    scanScalar (n.text ++ rest) = some (n.value, rest) := by
  obtain ⟨c, tail, htext, hc⟩ := Numeral.exists_head_text h
  have hscan := Numeral.scan_text h hrest
  have hother : ∀ d : Char, d ∈ ['n', 't', 'f', '"'] → c ≠ d := by
    rintro d hd rfl
    rcases hc with rfl | hc
    · simp at hd
    · simp only [List.mem_cons, List.not_mem_nil, or_false] at hd
      rcases hd with rfl | rfl | rfl | rfl <;> cases hc
  rw [htext] at hscan ⊢
  rw [List.cons_append] at hscan ⊢
  unfold scanScalar
  split
  next he => exact absurd (List.cons.inj he).1 (hother _ (by simp))
  next he => exact absurd (List.cons.inj he).1 (hother _ (by simp))
  next he => exact absurd (List.cons.inj he).1 (hother _ (by simp))
  next he => exact absurd (List.cons.inj he).1 (hother _ (by simp))
  next => simp [hscan]

theorem scanValue_leaf {c : Char} (h : Opens c) (hlist : c ≠ '[') (hrecord : c ≠ '\x7b')
    (cs : List Char) (fuel : Nat) : scanValue (fuel + 1) (c :: cs) = scanScalar (c :: cs) := by
  rw [scanValue, skipBlanks_cons h.notBlank]
  split
  next he => exact absurd (List.cons.inj he).1 hlist
  next he => exact absurd (List.cons.inj he).1 hrecord
  next => rfl

theorem scanValue_numeral {n : Numeral} (h : n.Proper) (hrest : Numeral.Ends rest) (fuel : Nat) :
    scanValue (fuel + 1) (n.text ++ rest) = some (n.value, rest) := by
  obtain ⟨c, tail, htext, hc⟩ := Numeral.exists_head_text h
  have hscan := scanScalar_numeral h hrest
  rw [htext] at hscan ⊢
  refine (scanValue_leaf (.number hc) ?_ ?_ _ fuel).trans hscan
  · rintro rfl
    rcases hc with hc | hc <;> cases hc
  · rintro rfl
    rcases hc with hc | hc <;> cases hc

theorem scanValue_quote (s : String) (fuel : Nat) :
    scanValue (fuel + 1) (quote s ++ rest) = some (.text s, rest) := by
  rw [quote, List.append_assoc, List.cons_append,
    scanValue_leaf ⟨rfl, by decide⟩ (by decide) (by decide)]
  simp [scanScalar, scanText_flatMap, ofText]

theorem scan_not_finite {x : Float} (h : x.isFinite = false) :
    (dataFloat x).toList = "null".toList ∧ rereadReal x = .null := by
  have htext : dataFloat x = "null" := by simp [dataFloat, h]
  refine ⟨by rw [htext], ?_⟩
  rw [rereadReal, htext]
  rfl

theorem scanValue_dataFloat (x : Float) (hrest : Numeral.Ends rest) (fuel : Nat) :
    scanValue (fuel + 1) ((dataFloat x).toList ++ rest) = some (rereadReal x, rest) := by
  cases hx : x.isFinite with
  | false =>
    obtain ⟨htext, hread⟩ := scan_not_finite hx
    rw [htext, hread]
    exact scanValue_leaf ⟨rfl, by decide⟩ (by decide) (by decide) _ fuel
  | true =>
    obtain ⟨n, hn, -, htext⟩ := exists_numeral_dataFloat hx
    have hread : rereadReal x = n.value := by
      have hscan := Numeral.scan_text hn Numeral.ends_nil
      rw [List.append_nil] at hscan
      rw [rereadReal, htext, hscan]
    rw [htext, hread]
    exact scanValue_numeral hn hrest fuel

/-- A value starts with neither a blank nor a closing bracket. -/
theorem exists_head_layout {d : Document} (h : d.Written) (indent : Nat) :
    ∃ c tail, layout .json indent d = c :: tail ∧ Opens c := by
  have hopens : ∀ c ∈ ['n', 't', 'f', '"', '[', '\x7b'], Opens c := by
    intro c hc
    simp only [List.mem_cons, List.not_mem_nil, or_false] at hc
    rcases hc with rfl | rfl | rfl | rfl | rfl | rfl <;> exact ⟨rfl, by decide⟩
  cases d with
  | null => exact ⟨'n', _, rfl, hopens _ (by simp)⟩
  | bool b =>
    cases b with
    | true => exact ⟨'t', _, rfl, hopens _ (by simp)⟩
    | false => exact ⟨'f', _, rfl, hopens _ (by simp)⟩
  | number n =>
    cases n with
    | integer n =>
      obtain ⟨c, tail, htext, hc⟩ := Numeral.exists_head_text (Numeral.proper_ofInt n)
      exact ⟨c, tail, (Numeral.text_ofInt n).symm.trans htext, .number hc⟩
    | real x =>
      cases hx : x.isFinite with
      | false => exact ⟨'n', _, (scan_not_finite hx).1, hopens _ (by simp)⟩
      | true =>
        obtain ⟨n, hn, -, htext⟩ := exists_numeral_dataFloat hx
        obtain ⟨c, tail, hhead, hc⟩ := Numeral.exists_head_text hn
        exact ⟨c, tail, htext.trans hhead, .number hc⟩
  | text s => exact ⟨'"', _, rfl, hopens _ (by simp)⟩
  | list items => cases items <;> exact ⟨'[', _, rfl, hopens _ (by simp)⟩
  | record entries => cases entries <;> exact ⟨'\x7b', _, rfl, hopens _ (by simp)⟩
  | _ => exact absurd h (by simp [Written])

/-- All items of a list. -/
def layoutAll (indent : Nat) : List Document → List Char
  | [] => []
  | d :: rest => layout .json indent d ++ layoutItems .json indent rest

/-- All entries of a record. -/
def layoutFields (indent : Nat) : Entries → List Char
  | [] => []
  | (key, d) :: rest =>
    quote (key.asText.getD "") ++ ':' :: ' ' :: layout .json indent d
      ++ layoutEntries .json indent rest

theorem ends_newLine (indent : Nat) (cs : List Char) : Numeral.Ends (newLine indent ++ cs) := by
  intro c tail he
  obtain rfl := (List.cons.inj he).1
  decide

theorem ends_comma (cs : List Char) : Numeral.Ends (',' :: cs) := by
  intro c tail he
  obtain rfl := (List.cons.inj he).1
  decide

mutual

/-- Each call has enough fuel if there is twice as much as there are characters. -/
theorem scanValue_layout : ∀ (d : Document), d.Written → ∀ (indent fuel : Nat) (rest : List Char),
    Numeral.Ends rest → 2 * (layout .json indent d ++ rest).length + 1 ≤ fuel →
      scanValue fuel (layout .json indent d ++ rest) = some (d.reread, rest)
  | .null, _, _, fuel + 1, rest, _, _ => scanValue_leaf ⟨rfl, by decide⟩ (by decide) (by decide) _ _
  | .bool true, _, _, fuel + 1, rest, _, _ =>
    scanValue_leaf ⟨rfl, by decide⟩ (by decide) (by decide) _ _
  | .bool false, _, _, fuel + 1, rest, _, _ =>
    scanValue_leaf ⟨rfl, by decide⟩ (by decide) (by decide) _ _
  | .number (.integer n), h, _, fuel + 1, rest, hrest, _ => by
    have hscan := scanValue_numeral (Numeral.proper_ofInt n) hrest fuel
    rwa [Numeral.text_ofInt, Numeral.value_ofInt h] at hscan
  | .number (.real x), _, _, fuel + 1, rest, hrest, _ => scanValue_dataFloat x hrest fuel
  | .text s, _, _, fuel + 1, rest, _, _ => scanValue_quote s fuel
  | .list [], _, _, fuel + 1, rest, _, _ => rfl
  | .record [], _, _, fuel + 1, rest, _, _ => rfl
  | .list (d :: items), h, indent, fuel + 1, rest, _, hfuel => by
    obtain ⟨c, tail, hhead, hopens⟩ := exists_head_layout h.1 (indent + 1)
    have hlayout : layout .json indent (.list (d :: items)) ++ rest =
        '[' :: (newLine (indent + 1) ++
          (layoutAll (indent + 1) (d :: items) ++ (newLine indent ++ ']' :: rest))) := by
      simp [layout, layoutAll]
    rw [hlayout] at hfuel ⊢
    have hitems := scanItems_layout (d :: items) h (by simp) (indent + 1) indent fuel rest (by
      simp only [List.length_cons, List.length_append] at hfuel ⊢
      omega)
    rw [scanValue, skipBlanks_cons (by rfl)]
    simp only [skipBlanks_newLine]
    have hskip :
        skipBlanks (layoutAll (indent + 1) (d :: items) ++ (newLine indent ++ ']' :: rest)) =
          layoutAll (indent + 1) (d :: items) ++ (newLine indent ++ ']' :: rest) := by
      simp only [layoutAll, hhead, List.cons_append]
      exact skipBlanks_cons hopens.notBlank _
    rw [hskip]
    split
    next he =>
      simp only [layoutAll, hhead, List.cons_append] at he
      exact absurd (List.cons.inj he).1 hopens.notClosing
    next => simp only [hitems, Option.bind_eq_bind, Option.bind_some, reread]
  | .record (entry :: entries), h, indent, fuel + 1, rest, _, hfuel => by
    have hlayout : layout .json indent (.record (entry :: entries)) ++ rest =
        '\x7b' :: (newLine (indent + 1) ++
          (layoutFields (indent + 1) (entry :: entries) ++
            (newLine indent ++ '\x7d' :: rest))) := by
      simp [layout, layoutFields, Spelling.json]
    rw [hlayout] at hfuel ⊢
    have hentries := scanEntries_layout (entry :: entries) h (by simp) (indent + 1) indent fuel rest
      (by
        simp only [List.length_cons, List.length_append] at hfuel ⊢
        omega)
    rw [scanValue, skipBlanks_cons (by rfl)]
    simp only [skipBlanks_newLine]
    have hskip : skipBlanks (layoutFields (indent + 1) (entry :: entries) ++
        (newLine indent ++ '\x7d' :: rest)) =
          layoutFields (indent + 1) (entry :: entries) ++ (newLine indent ++ '\x7d' :: rest) :=
      skipBlanks_cons (by rfl) _
    rw [hskip]
    split
    next he => cases (List.cons.inj he).1
    next => simp only [hentries, Option.bind_eq_bind, Option.bind_some, reread]

theorem scanItems_layout : ∀ (items : List Document), WrittenItems items → items ≠ [] →
    ∀ (indent outer fuel : Nat) (rest : List Char),
      2 * (layoutAll indent items ++ (newLine outer ++ ']' :: rest)).length + 2 ≤ fuel →
        scanItems fuel (layoutAll indent items ++ (newLine outer ++ ']' :: rest)) =
          some (rereadItems items, rest)
  | [d], h, _, indent, outer, fuel + 1, rest, hfuel => by
    have hvalue := scanValue_layout d h.1 indent fuel (newLine outer ++ ']' :: rest)
      (ends_newLine outer _) (by
        simp only [layoutAll, layoutItems, List.append_nil] at hfuel
        omega)
    simp only [layoutAll, layoutItems, List.append_nil]
    rw [scanItems, hvalue]
    simp [skipBlanks_newLine, skipBlanks_cons, isJsonBlank, rereadItems]
  | d :: e :: items, h, _, indent, outer, fuel + 1, rest, hfuel => by
    have hlayout : layoutAll indent (d :: e :: items) ++ (newLine outer ++ ']' :: rest) =
        layout .json indent d ++ (',' :: (newLine indent ++
          (layoutAll indent (e :: items) ++ (newLine outer ++ ']' :: rest)))) := by
      simp [layoutAll, layoutItems]
    rw [hlayout] at hfuel ⊢
    have hvalue := scanValue_layout d h.1 indent fuel (',' :: (newLine indent ++
      (layoutAll indent (e :: items) ++ (newLine outer ++ ']' :: rest)))) (ends_comma _) (by omega)
    have hitems := scanItems_layout (e :: items) h.2 (by simp) indent outer fuel rest (by
      simp only [List.length_cons, List.length_append] at hfuel ⊢
      omega)
    rw [scanItems, hvalue]
    simp only [Option.bind_eq_bind, Option.bind_some]
    rw [skipBlanks_cons (by rfl)]
    simp only [scanItems_congr (skipBlanks_newLine indent _), hitems, Option.bind_some, rereadItems]

theorem scanEntries_layout : ∀ (entries : Entries), WrittenEntries entries → entries ≠ [] →
    ∀ (indent outer fuel : Nat) (rest : List Char),
      2 * (layoutFields indent entries ++ (newLine outer ++ '\x7d' :: rest)).length + 2 ≤ fuel →
        scanEntries fuel (layoutFields indent entries ++ (newLine outer ++ '\x7d' :: rest)) =
          some (rereadEntries entries, rest)
  | [(key, d)], h, _, indent, outer, fuel + 1, rest, hfuel => by
    obtain ⟨⟨s, rfl⟩, hd, -⟩ := h
    have hlayout : layoutFields indent [(.text s, d)] ++ (newLine outer ++ '\x7d' :: rest) =
        '"' :: (s.toList.flatMap escape ++ '"' :: ':' :: ' ' :: (layout .json indent d ++
          (newLine outer ++ '\x7d' :: rest))) := by
      simp [layoutFields, layoutEntries, quote, asText, untag]
    rw [hlayout] at hfuel ⊢
    have hvalue := scanValue_layout d hd indent fuel (newLine outer ++ '\x7d' :: rest)
      (ends_newLine outer _) (by
        simp only [List.length_cons, List.length_append] at hfuel ⊢
        omega)
    rw [scanEntries, skipBlanks_cons (by rfl)]
    simp only [scanText_flatMap, Option.bind_eq_bind, Option.bind_some]
    rw [skipBlanks_cons (by rfl)]
    have hblank : skipBlanks (' ' :: (layout .json indent d ++ (newLine outer ++ '\x7d' :: rest))) =
        skipBlanks (layout .json indent d ++ (newLine outer ++ '\x7d' :: rest)) := rfl
    simp only [scanValue_congr hblank, hvalue, Option.bind_some, skipBlanks_newLine]
    rw [skipBlanks_cons (by rfl)]
    rfl
  | (key, d) :: entry :: entries, h, _, indent, outer, fuel + 1, rest, hfuel => by
    obtain ⟨⟨s, rfl⟩, hd, hentries⟩ := h
    have hlayout : layoutFields indent ((.text s, d) :: entry :: entries) ++
        (newLine outer ++ '\x7d' :: rest) =
          '"' :: (s.toList.flatMap escape ++ '"' :: ':' :: ' ' :: (layout .json indent d ++
            (',' :: (newLine indent ++ (layoutFields indent (entry :: entries) ++
              (newLine outer ++ '\x7d' :: rest)))))) := by
      simp [layoutFields, layoutEntries, quote, asText, untag, Spelling.json]
    rw [hlayout] at hfuel ⊢
    have hvalue := scanValue_layout d hd indent fuel (',' :: (newLine indent ++
      (layoutFields indent (entry :: entries) ++ (newLine outer ++ '\x7d' :: rest))))
      (ends_comma _) (by
      simp only [List.length_cons, List.length_append] at hfuel ⊢
      omega)
    have hrest := scanEntries_layout (entry :: entries) hentries (by simp) indent outer fuel rest
      (by
        simp only [List.length_cons, List.length_append] at hfuel ⊢
        omega)
    rw [scanEntries, skipBlanks_cons (by rfl)]
    simp only [scanText_flatMap, Option.bind_eq_bind, Option.bind_some]
    rw [skipBlanks_cons (by rfl)]
    have hblank : ∀ cs, skipBlanks (' ' :: cs) = skipBlanks cs := fun cs => rfl
    simp only [scanValue_congr (hblank _), hvalue, Option.bind_some]
    rw [skipBlanks_cons (by rfl)]
    simp only [scanEntries_congr (skipBlanks_newLine indent _), hrest, Option.bind_some, ofText,
      rereadEntries]

end

end Scan

/-- What was written as JSON text is read again. -/
theorem ofJson_toJson {d : Document} (h : d.Written) : ofJson d.toJson = some d.reread := by
  have hscan := scanValue_layout d h 0 (2 * d.toJson.length + 2) [] Numeral.ends_nil (by
    rw [List.append_nil, toJson, String.length_ofList]
    exact Nat.le_succ _)
  rw [List.append_nil] at hscan
  have hlist : d.toJson.toList = layout .json 0 d := String.toList_ofList
  rw [ofJson, hlist, hscan]
  rfl

/-- What is read of a double is a double, or nothing that counts as one. -/
theorem rereadReal_cases (x : Float) : rereadReal x = .null ∨ rereadReal x = .unreadable ∨
    ∃ y, rereadReal x = .number (.real y) := by
  cases hx : x.isFinite with
  | false => exact .inl (scan_not_finite hx).2
  | true =>
    obtain ⟨n, hn, hreal, htext⟩ := exists_numeral_dataFloat hx
    have hscan := Numeral.scan_text hn Numeral.ends_nil
    rw [List.append_nil] at hscan
    have hvalue : n.value = n.real := by
      obtain ⟨_, _, fraction, exponent⟩ := n
      cases fraction <;> cases exponent <;> first | rfl | simp at hreal
    rw [rereadReal, htext, hscan]
    simp only [hvalue, Numeral.real]
    cases n.realMagnitude with
    | none => exact .inr (.inl rfl)
    | some y => exact .inr (.inr ⟨_, rfl⟩)

/-- A double whose text is read as the same double. -/
def Restored (x : Float) : Prop :=
  ofJson (dataFloat x) = some (.number (.real x))

theorem restored_iff {x : Float} : Restored x ↔ rereadReal x = .number (.real x) := by
  have htext : toJson (.number (.real x)) = dataFloat x := String.ofList_toList
  have hread := ofJson_toJson (d := .number (.real x)) trivial
  rw [htext] at hread
  rw [Restored, hread, Option.some.injEq, reread]

/-- The tree is just this double. -/
def isReal (x : Float) : Document → Bool
  | .number (.real y) => y = x
  | _ => false

theorem isReal_iff {x : Float} {d : Document} : d.isReal x = true ↔ d = .number (.real x) := by
  cases d with
  | number n => cases n <;> simp [isReal]
  | _ => simp [isReal]

instance : DecidablePred Restored := fun _ =>
  decidable_of_iff _ (isReal_iff.trans restored_iff.symm)

theorem Restored.isFinite {x : Float} (h : Restored x) : x.isFinite = true := by
  rw [restored_iff] at h
  cases hx : x.isFinite with
  | true => rfl
  | false =>
    rw [(scan_not_finite hx).2] at h
    cases h

end DifferentialAnalyzer.Document
