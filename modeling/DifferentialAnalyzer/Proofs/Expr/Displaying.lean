import DifferentialAnalyzer.Proofs.Expr.Scanning
import DifferentialAnalyzer.Proofs.Expr.Spelling

/-! The text of an expression is scanned as tokens that spell it, whatever stands behind it. So the
tokens of a whole are put together from those of its parts, from the last to the first. -/

namespace DifferentialAnalyzer

/-- The text is scanned as such tokens, whatever follows it that does not go on a name or number.
What is known of the tokens behind it is kept. -/
def Token.Gives (text : String) (P : List Token → Prop) : Prop :=
  ∀ rest Q, Ends rest → Scans rest Q →
    Scans (text.toList ++ rest) fun ts => ∃ us vs, ts = us ++ vs ∧ P us ∧ Q vs

theorem Quantifier.longest_keyword (kind : Quantifier) {rest : List Char}
    (hrest : Token.Ends rest) : ∃ k, Expr.quantifier? k = some kind ∧
      Token.longest (kind.keyword.toList ++ rest) = some (k, kind.keyword.toList.length) := by
  have hword : Token.IsWord kind.keyword.toList := by
    cases kind with
    | sum => exact ⟨'s', ['u', 'm'], rfl, rfl, List.all_eq_true.mp rfl⟩
    | product => exact ⟨'p', ['r', 'o', 'd', 'u', 'c', 't'], rfl, rfl, List.all_eq_true.mp rfl⟩
  refine ⟨_, ?_, Token.longest_word hword hrest⟩
  cases kind <;> rfl

namespace Expr

/-- Text of a variable, a function or an index. -/
def IsName (name : String) : Prop :=
  Token.IsWord name.toList ∧ Token.nameKind name.toList = .name

mutual

/-- An expression as it is read: no numbers but finite ones without a sign, no names but those that
are scanned as names, no call without arguments, and no binding. -/
inductive Simple : Expr → Prop
  | lit {rank : Nat} (hle : rank ≤ Binary64.infinityRank)
      (h : (Binary64.toFloat false rank).isFinite = true) :
      Simple (.lit (Binary64.toFloat false rank))
  | var {name : String} (h : IsName name) : Simple (.var name)
  | unary (sign : Sign) {operand : Expr} (h : Simple operand) : Simple (.unary sign operand)
  | binary (op : Operator) {lhs rhs : Expr} (hl : Simple lhs) (hr : Simple rhs) :
      Simple (.binary op lhs rhs)
  | call {name : String} {args : List Expr} (h : IsName name) (hs : SimpleArguments args) :
      Simple (.call name args)
  | quantified (kind : Quantifier) {index : String} {first last body : Expr} (h : IsName index)
      (hf : Simple first) (hx : Simple last) (hb : Simple body) :
      Simple (.quantified kind index first last body)

inductive SimpleArguments : List Expr → Prop
  | last {e : Expr} (h : Simple e) : SimpleArguments [e]
  | more {e : Expr} {es : List Expr} (h : Simple e) (hs : SimpleArguments es) :
      SimpleArguments (e :: es)

end

section Gives

open Token (Gives Ends)
open Document.Numeral (fractionText)

/-- Names and numbers do not go on with a blank or a mark. -/
theorem ends_of_mark {c : Char} (h : c = ' ' ∨ c = ',' ∨ c = '(' ∨ c = ')' ∨ c = ';')
    (cs : List Char) : Ends (c :: cs) := by
  refine Token.ends_cons ?_ cs
  rcases h with rfl | rfl | rfl | rfl | rfl <;> decide

theorem gives_name {name : String} (h : IsName name) :
    Gives name fun ts => ∃ t, ts = [t] ∧ t.kind = .name ∧ t.text = name := by
  intro rest Q hrest hs
  obtain ⟨hword, hkind⟩ := h
  have hne : name.toList ≠ [] := by
    obtain ⟨c, cs, hcs, -⟩ := hword
    rw [hcs]
    exact List.cons_ne_nil c cs
  have hlong := Token.longest_word hword hrest
  rw [hkind] at hlong
  refine (hs.token hne hlong).imp ?_
  rintro _ ⟨t, us, rfl, ht, hQ⟩
  exact ⟨[t], us, rfl, ⟨t, rfl, ht.kind, by rw [ht.text, String.ofList_toList]⟩, hQ⟩

theorem gives_lit {rank : Nat} (hle : rank ≤ Binary64.infinityRank)
    (h : (Binary64.toFloat false rank).isFinite = true) :
    Gives (Expr.lit (Binary64.toFloat false rank)).display
      (Spells · (.lit (Binary64.toFloat false rank))) := by
  intro rest Q hrest hs
  obtain ⟨whole, fraction, hplain, htext, hread⟩ := Decimal.exists_displayFloat hle h
  have hne : whole ++ fractionText fraction ≠ [] := by simp [hplain.whole.1]
  rw [display, htext]
  refine (hs.token hne (Token.longest_plain hplain hrest)).imp ?_
  rintro _ ⟨t, us, rfl, ht, hQ⟩
  have hnumber : t.number = Binary64.toFloat false rank := by
    rw [Token.number, ht.text, String.toList_ofList, hread]
    rfl
  exact ⟨[t], us, rfl, hnumber ▸ Spells.lit ht.kind, hQ⟩

theorem gives_var {name : String} (h : IsName name) :
    Gives (Expr.var name).display (Spells · (.var name)) := by
  intro rest Q hrest hs
  refine (gives_name h rest Q hrest hs).imp ?_
  rintro _ ⟨_, us, rfl, ⟨t, rfl, ht, rfl⟩, hQ⟩
  exact ⟨[t], us, rfl, .var ht, hQ⟩

theorem gives_unary (sign : Sign) {operand : Expr} (h : Gives operand.display (Spells · operand)) :
    Gives (Expr.unary sign operand).display (Spells · (.unary sign operand)) := by
  intro rest Q hrest hs
  have htext : ∃ c kind, (Expr.unary sign operand).display.toList ++ rest =
      c :: (operand.display.toList ++ rest) ∧ Token.single c = some kind ∧
      Token.withEquals c = none ∧ sign? kind = some sign := by
    cases sign with
    | plus => exact ⟨'+', .plus, by simp [display, Sign.symbol], rfl, rfl, rfl⟩
    | minus => exact ⟨'-', .minus, by simp [display, Sign.symbol], rfl, rfl, rfl⟩
  obtain ⟨c, kind, htext, hc, he, hsign⟩ := htext
  rw [htext]
  refine ((h rest Q hrest hs).single c hc he).imp ?_
  rintro _ ⟨t, _, rfl, ht, us, vs, rfl, hus, hQ⟩
  exact ⟨t :: us, vs, rfl, .unary (ht.kind ▸ hsign) hus, hQ⟩

theorem gives_binary (op : Operator) {lhs rhs : Expr} (hl : Gives lhs.display (Spells · lhs))
    (hr : Gives rhs.display (Spells · rhs)) :
    Gives (Expr.binary op lhs rhs).display (Spells · (.binary op lhs rhs)) := by
  intro rest Q hrest hs
  have htext : (Expr.binary op lhs rhs).display.toList ++ rest =
      '(' :: (lhs.display.toList ++ ' ' :: (op.symbol.toList ++ ' ' ::
        (rhs.display.toList ++ ')' :: rest))) := by
    simp [display]
  have hright := hr _ _ (ends_of_mark (by simp) _) (hs.single ')' rfl rfl)
  have hop := hright.blank.token (by cases op <;> decide) (op.longest_symbol _)
  have hleft := hl _ _ (ends_of_mark (by simp) _) hop.blank
  rw [htext]
  refine (hleft.single '(' rfl rfl).imp ?_
  rintro _ ⟨o, _, rfl, ho, us, _, rfl, hus, t, _, rfl, ht, vs, _, rfl, hvs, c, ws, rfl, hc, hQ⟩
  exact ⟨o :: (us ++ t :: (vs ++ [c])), ws, by simp,
    .binary ho.kind hus ht.kind hvs hc.kind, hQ⟩

theorem gives_call {name : String} {args : List Expr} (h : IsName name)
    (hargs : Gives (displayList args ++ ")") (SpellsArguments · args)) :
    Gives (Expr.call name args).display (Spells · (.call name args)) := by
  intro rest Q hrest hs
  have htext : (Expr.call name args).display.toList ++ rest =
      name.toList ++ '(' :: ((displayList args ++ ")").toList ++ rest) := by
    simp [display]
  have hopen := (hargs rest Q hrest hs).single '(' rfl rfl
  rw [htext]
  refine (gives_name h _ _ (ends_of_mark (by simp) _) hopen).imp ?_
  rintro _ ⟨_, _, rfl, ⟨t, rfl, ht, rfl⟩, o, _, rfl, ho, us, vs, rfl, hus, hQ⟩
  exact ⟨t :: o :: us, vs, rfl, .call ht ho.kind hus, hQ⟩

theorem gives_quantified (kind : Quantifier) {index : String} {first last body : Expr}
    (h : IsName index) (hf : Gives first.display (Spells · first))
    (hx : Gives last.display (Spells · last)) (hb : Gives body.display (Spells · body)) :
    Gives (Expr.quantified kind index first last body).display
      (Spells · (.quantified kind index first last body)) := by
  intro rest Q hrest hs
  have htext : (Expr.quantified kind index first last body).display.toList ++ rest =
      kind.keyword.toList ++ '(' :: (index.toList ++ ' ' :: '=' :: ' ' ::
        (first.display.toList ++ ',' :: ' ' :: (last.display.toList ++ ',' :: ' ' ::
          (body.display.toList ++ ')' :: rest)))) := by
    simp [display]
  have hbody := hb _ _ (ends_of_mark (by simp) _) (hs.single ')' rfl rfl)
  have hlast := hx _ _ (ends_of_mark (by simp) _) (hbody.blank.single ',' rfl rfl)
  have hfirst := hf _ _ (ends_of_mark (by simp) _) (hlast.blank.single ',' rfl rfl)
  have hindex := gives_name h _ _ (ends_of_mark (by simp) _) hfirst.blank.assign.blank
  have hmark : ∀ cs, Ends ('(' :: cs) := ends_of_mark (by simp)
  obtain ⟨k, hk, hlong⟩ := kind.longest_keyword (hmark _)
  rw [htext]
  refine ((hindex.single '(' rfl rfl).token (by cases kind <;> decide) hlong).imp ?_
  rintro _ ⟨q, _, rfl, hq, o, _, rfl, ho, _, _, rfl, ⟨n, rfl, hn, rfl⟩, a, _, rfl, ha, us, _, rfl,
    hus, c, _, rfl, hc, vs, _, rfl, hvs, d, _, rfl, hd, ws, _, rfl, hws, t, xs, rfl, ht, hQ⟩
  exact ⟨q :: o :: n :: a :: (us ++ c :: (vs ++ d :: (ws ++ [t]))), xs, by simp,
    .quantified (hq.kind ▸ hk) ho.kind hn ha.kind hus hc.kind hvs hd.kind hws ht.kind, hQ⟩

theorem gives_last {e : Expr} (h : Gives e.display (Spells · e)) :
    Gives (displayList [e] ++ ")") (SpellsArguments · [e]) := by
  intro rest Q hrest hs
  have htext : (displayList [e] ++ ")").toList ++ rest = e.display.toList ++ ')' :: rest := by
    simp [displayList]
  rw [htext]
  refine (h _ _ (ends_of_mark (by simp) _) (hs.single ')' rfl rfl)).imp ?_
  rintro _ ⟨us, _, rfl, hus, c, vs, rfl, hc, hQ⟩
  exact ⟨us ++ [c], vs, by simp, .last hus hc.kind, hQ⟩

theorem gives_more {e : Expr} {es : List Expr} (hne : es ≠ [])
    (h : Gives e.display (Spells · e))
    (hes : Gives (displayList es ++ ")") (SpellsArguments · es)) :
    Gives (displayList (e :: es) ++ ")") (SpellsArguments · (e :: es)) := by
  intro rest Q hrest hs
  have htext : (displayList (e :: es) ++ ")").toList ++ rest =
      e.display.toList ++ ',' :: ' ' :: ((displayList es ++ ")").toList ++ rest) := by
    obtain ⟨d, ds, rfl⟩ := List.exists_cons_of_ne_nil hne
    simp [displayList]
  have hcomma := (hes rest Q hrest hs).blank.single ',' rfl rfl
  rw [htext]
  refine (h _ _ (ends_of_mark (by simp) _) hcomma).imp ?_
  rintro _ ⟨us, _, rfl, hus, c, _, rfl, hc, vs, ws, rfl, hvs, hQ⟩
  exact ⟨us ++ c :: vs, ws, by simp, .more hus hc.kind hvs, hQ⟩

theorem SimpleArguments.ne_nil {es : List Expr} (h : SimpleArguments es) : es ≠ [] := by
  cases h <;> simp

theorem Simple.gives {e : Expr} (h : Simple e) : Gives e.display (Spells · e) := by
  induction h using Simple.rec
    (motive_2 := fun es _ => Gives (displayList es ++ ")") (SpellsArguments · es)) with
  | lit hle h => exact gives_lit hle h
  | var h => exact gives_var h
  | unary sign h ih => exact gives_unary sign ih
  | binary op hl hr ihl ihr => exact gives_binary op ihl ihr
  | call h hs ih => exact gives_call h ih
  | quantified kind h hf hx hb ihf ihx ihb => exact gives_quantified kind h ihf ihx ihb
  | last h ih => exact gives_last ih
  | more h hs ih ihs => exact gives_more hs.ne_nil ih ihs

end Gives

end Expr

end DifferentialAnalyzer
