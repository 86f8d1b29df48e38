import DifferentialAnalyzer.Proofs.Expr.Displaying
import DifferentialAnalyzer.Proofs.Expr.Reduction

/-! Whatever text an expression was read from, its own text can be read, and gives the expression
back unless a sign is the base of a power in it. -/

namespace DifferentialAnalyzer

open Binary64 (infinityRank)

theorem Decimal.rank_le (d : Decimal) : d.rank ≤ infinityRank := by
  unfold rank
  split
  · exact Nat.zero_le _
  · split
    · exact Nat.le_refl _
    · split
      · exact Nat.zero_le _
      · exact Nat.min_le_right _ _

theorem Binary64.toFloat_zero : toFloat false 0 = 0.0 := by
  decide +kernel

namespace Expr

mutual

def literals : Expr → List Float
  | .lit v => [v]
  | .var _ => []
  | .unary _ operand => operand.literals
  | .binary _ lhs rhs => lhs.literals ++ rhs.literals
  | .call _ args => literalsList args
  | .quantified _ _ first last body => first.literals ++ last.literals ++ body.literals
  | .bind _ value rest => value.literals ++ rest.literals

def literalsList : List Expr → List Float
  | [] => []
  | e :: es => e.literals ++ literalsList es

end

mutual

/-- A sign is the base of a power somewhere in the expression. -/
def hasSignedBase : Expr → Bool
  | .lit _ => false
  | .var _ => false
  | .unary _ operand => operand.hasSignedBase
  | .binary op lhs rhs =>
    (op == .power && lhs.isSigned) || lhs.hasSignedBase || rhs.hasSignedBase
  | .call _ args => hasSignedBaseList args
  | .quantified _ _ first last body =>
    first.hasSignedBase || last.hasSignedBase || body.hasSignedBase
  | .bind _ value rest => value.hasSignedBase || rest.hasSignedBase

def hasSignedBaseList : List Expr → Bool
  | [] => false
  | e :: es => e.hasSignedBase || hasSignedBaseList es

end

theorem rereadList_eq_self_iff {es : List Expr}
    (h : ∀ e ∈ es, e.reread none = e ↔ e.hasSignedBase = false) :
    rereadList es = es ↔ hasSignedBaseList es = false := by
  induction es with
  | nil => simp [rereadList, hasSignedBaseList]
  | cons e es ih =>
    rw [List.forall_mem_cons] at h
    simp [rereadList, hasSignedBaseList, h.1, ih h.2]

/-- The sign of a base takes in the power, so what is read is a sign and no power. -/
theorem reread_power_ne {lhs : Expr} (h : lhs.isSigned = true) (rhs : Expr) :
    (binary .power lhs rhs).reread none ≠ .binary .power lhs rhs := by
  cases lhs with
  | unary sign operand => simp [reread, raise]
  | _ => cases h

theorem reread_eq_self_iff (e : Expr) : e.reread none = e ↔ e.hasSignedBase = false := by
  induction e with
  | lit v => simp [reread, raise, hasSignedBase]
  | var name => simp [reread, raise, hasSignedBase]
  | unary sign operand ih => simp [reread, hasSignedBase, ih]
  | binary op lhs rhs ihl ihr =>
    by_cases hop : op = .power
    · subst hop
      by_cases hs : lhs.isSigned = true
      · simp [hasSignedBase, hs, reread_power_ne hs rhs]
      · have hs' := Bool.eq_false_iff.mpr hs
        simp [reread, raise, hasSignedBase, hs', reread_some hs', ihl, ihr]
    · simp [reread_binary hop, hasSignedBase, hop, ihl, ihr]
  | call name args ih => simp [reread, raise, hasSignedBase, rereadList_eq_self_iff ih]
  | quantified kind index first last body ihf ihx ihb =>
    simp [reread, raise, hasSignedBase, ihf, ihx, ihb, and_assoc]
  | bind name value rest ihv ihr => simp [reread, raise, hasSignedBase, ihv, ihr]

/-- Tokens as a scan leaves them. -/
def Scanned (ts : List Token) : Prop :=
  ∀ t ∈ ts, t.Readable ∧ t.Named

theorem Scanned.behind {rest ts : List Token} (h : Scanned ts) (hb : Behind rest ts) :
    Scanned rest :=
  fun t ht => h t (hb.subset ht)

theorem scanned_of_tokenize {src : String} {ts : List Token} (h : tokenize src = .ok ts) :
    Scanned ts :=
  fun t ht => ⟨Token.readable_scan h t ht, Token.named_scan h t ht⟩

theorem Scanned.isName {t : Token} {ts : List Token} (h : Scanned (t :: ts)) (ht : t.kind = .name) :
    IsName t.text :=
  (h t List.mem_cons_self).2 ht

theorem Scanned.simple_number {t : Token} {ts : List Token} (h : Scanned (t :: ts))
    (ht : t.kind = .number) (hfinite : t.number.isFinite = true) : Simple (.lit t.number) := by
  obtain ⟨d, hd⟩ := Option.isSome_iff_exists.mp ((h t List.mem_cons_self).1 ht)
  have hnumber : t.number = Binary64.toFloat false d.rank := by
    rw [Token.number, hd]
    rfl
  rw [hnumber] at hfinite ⊢
  exact .lit d.rank_le hfinite

/-- What is read from the tokens of a text is simple if its numbers are finite. -/
theorem Derives.simple {s : Symbol} {ts rest : List Token} {e : Expr} (h : Derives s ts e rest) :
    Scanned ts → (∀ v ∈ e.literals, v.isFinite = true) → Simple e := by
  induction h using Derives.rec (motive_2 := fun ts es rest _ =>
    Scanned ts → (∀ v ∈ literalsList es, v.isFinite = true) → SimpleArguments es) with
  | operand h ih => exact ih
  | operator hl ht hr ihl ihr | raised hl ht hr ihl ihr =>
    intro hts hfinite
    obtain ⟨hfl, hfr⟩ := List.forall_mem_append.mp hfinite
    exact .binary _ (ihl hts hfl) (ihr (hts.behind ((Behind.tail _ _).trans hl.behind)) hfr)
  | beside hl hs hr ihl ihr =>
    intro hts hfinite
    obtain ⟨hfl, hfr⟩ := List.forall_mem_append.mp hfinite
    exact .binary _ (ihl hts hfl) (ihr (hts.behind hl.behind) hfr)
  | signed ht h ih => exact fun hts hfinite => .unary _ (ih (hts.behind (.tail _ _)) hfinite)
  | unsigned h ih => exact ih
  | base h ih => exact ih
  | number ht => exact fun hts hfinite => hts.simple_number ht (hfinite _ List.mem_cons_self)
  | name ht hs => exact fun hts _ => .var (hts.isName ht)
  | call ht hs h ih =>
    intro hts hfinite
    exact .call (hts.isName ht) (ih (hts.behind ((Behind.tail _ _).cons _)) hfinite)
  | bracketed ht h hs ih => exact fun hts => ih (hts.behind (.tail _ _))
  | quantified ht hl hn ha hf hc hx hd hb hs ihf ihx ihb =>
    intro hts hfinite
    obtain ⟨hfirst, hfb⟩ := List.forall_mem_append.mp hfinite
    obtain ⟨hff, hfx⟩ := List.forall_mem_append.mp hfirst
    have hname := hts.behind ((Behind.tail _ _).cons _)
    have hts₁ := hname.behind ((Behind.tail _ _).cons _)
    have hts₂ := hts₁.behind ((Behind.tail _ _).trans hf.behind)
    have hts₃ := hts₂.behind ((Behind.tail _ _).trans hx.behind)
    exact .quantified _ (hname.isName hn) (ihf hts₁ hff) (ihx hts₂ hfx) (ihb hts₃ hfb)
  | last h hs ih hts hfinite =>
    exact .last (ih hts (List.forall_mem_append.mp hfinite).1)
  | more h hc hs ih ihs hts hfinite =>
    obtain ⟨hf, hfs⟩ := List.forall_mem_append.mp hfinite
    exact .more (ih hts hf) (ihs (hts.behind ((Behind.tail _ _).trans h.behind)) hfs)

/-- The text of the expression is a program, that of what it is read as. -/
def Redisplays (e : Expr) : Prop :=
  Token.Scans e.display.toList fun ts => Program ts (e.reread none)

theorem Simple.redisplays {e : Expr} (h : Simple e) : Redisplays e := by
  have htext := h.gives [] _ Token.ends_nil Token.scans_nil
  rw [List.append_nil] at htext
  refine htext.imp ?_
  rintro _ ⟨us, _, rfl, hus, rfl⟩
  rw [List.append_nil]
  have hphrase := @Spells.chain us e hus [] rfl .comparison
  rw [List.append_nil] at hphrase
  exact .expression hus.starts hphrase

theorem redisplays_bind {name : String} {value rest : Expr} (hn : IsName name) (hv : Simple value)
    (hr : Redisplays rest) : Redisplays (.bind name value rest) := by
  have htext : (Expr.bind name value rest).display.toList =
      name.toList ++ ' ' :: '=' :: ' ' :: (value.display.toList ++ ';' :: ' ' ::
        rest.display.toList) := by
    simp [display]
  have hvalue := hv.gives _ _ (ends_of_mark (by simp) _) (hr.blank.single ';' rfl rfl)
  rw [Redisplays, htext]
  refine (gives_name hn _ _ (ends_of_mark (by simp) _) hvalue.blank.assign.blank).imp ?_
  rintro _ ⟨_, _, rfl, ⟨n, rfl, hn', rfl⟩, a, _, rfl, ha, us, _, rfl, hus, s, vs, rfl, hs, hvs⟩
  have hstart : startsBracket (s :: vs) = false := by simp [startsBracket, hs.kind]
  exact .separated hn' ha.kind (hus.chain hstart .comparison) hs.kind hvs

theorem redisplays_zero : Redisplays (.lit 0.0) := by
  rw [← Binary64.toFloat_zero]
  exact (Simple.lit (Nat.zero_le _) (by decide +kernel)).redisplays

theorem Program.redisplays {ts : List Token} {e : Expr} (h : Program ts e) (hts : Scanned ts)
    (hfinite : ∀ v ∈ e.literals, v.isFinite = true) : Redisplays e := by
  induction h with
  | expression hb h => exact (h.simple hts hfinite).redisplays
  | last hn ha hv | closed hn ha hv hs =>
    have hvalue := hv.simple (hts.behind ((Behind.tail _ _).cons _))
      (List.forall_mem_append.mp hfinite).1
    exact redisplays_bind (hts.isName hn) hvalue redisplays_zero
  | separated hn ha hv hs h ih =>
    obtain ⟨hfv, hfr⟩ := List.forall_mem_append.mp hfinite
    have hts' := hts.behind ((Behind.tail _ _).cons _)
    have hrest := ih (hts'.behind ((Behind.tail _ _).trans hv.behind)) hfr
    exact redisplays_bind (hts.isName hn) (hv.simple hts' hfv) hrest
  | adjacent hn ha hv hb h ih =>
    obtain ⟨hfv, hfr⟩ := List.forall_mem_append.mp hfinite
    have hts' := hts.behind ((Behind.tail _ _).cons _)
    exact redisplays_bind (hts.isName hn) (hv.simple hts' hfv) (ih (hts'.behind hv.behind) hfr)

/-- The text of an expression that was read is itself read, as `reread` says. It gives the same
expression back exactly if no sign is the base of a power in it. -/
theorem parse_display {src : String} {e : Expr} (h : parse src = .ok e)
    (hfinite : ∀ v ∈ e.literals, v.isFinite = true) :
    parse e.display = .ok (e.reread none) ∧
      (parse e.display = .ok e ↔ e.hasSignedBase = false) := by
  obtain ⟨ts, hts, hprogram⟩ := bind_eq_ok_iff.mp h
  rw [ofTokens_eq_ok_iff (Token.readable_scan hts)] at hprogram
  obtain ⟨us, hus, hreread⟩ := hprogram.redisplays (scanned_of_tokenize hts) hfinite 0
  have hparse : parse e.display = .ok (e.reread none) := by
    rw [parse, tokenize, hus]
    exact (ofTokens_eq_ok_iff (Token.readable_scan hus)).mpr hreread
  refine ⟨hparse, ?_⟩
  rw [hparse, Except.ok.injEq, reread_eq_self_iff]

/-- Bindings, factors side by side and a signed exponent come back. -/
theorem parse_display_series : ∃ e,
    parse "k = .5 ^ -x; b = 2e3 k; -sum(i = 1, b, i / (k + 1)) max(i, 7)" = .ok e ∧
      (∀ v ∈ e.literals, v.isFinite = true) ∧ e.hasSignedBase = false ∧
      parse e.display = .ok e := by
  have hread : ((parse "k = .5 ^ -x; b = 2e3 k; -sum(i = 1, b, i / (k + 1)) max(i, 7)").toOption.any
      fun e => e.literals.all Float.isFinite && !e.hasSignedBase) = true := by
    decide +kernel
  obtain ⟨e, he, hgood⟩ := (Option.any_eq_true ..).mp hread
  rw [Bool.and_eq_true, List.all_eq_true, Bool.not_eq_true'] at hgood
  obtain ⟨hfinite, hbase⟩ := hgood
  have h := toOption_eq_some_iff.mp he
  exact ⟨e, h, hfinite, hbase, (parse_display h hfinite).2.mpr hbase⟩

/-- The brackets around the base are lost, and the sign takes in the power. -/
theorem signed_base_lost : ∃ e, parse "(-x)^2" = .ok e ∧
    (∀ v ∈ e.literals, v.isFinite = true) ∧ parse e.display ≠ .ok e := by
  have hread : ((parse "(-x)^2").toOption.any fun e =>
      e.literals.all Float.isFinite && e.display == "(-x ^ 2)") = true := by
    decide +kernel
  have hagain : (parse "(-x ^ 2)").map display = .ok "-(x ^ 2)" := by decide +kernel
  obtain ⟨e, he, hgood⟩ := (Option.any_eq_true ..).mp hread
  rw [Bool.and_eq_true, List.all_eq_true, beq_iff_eq] at hgood
  obtain ⟨hfinite, htext⟩ := hgood
  refine ⟨e, toOption_eq_some_iff.mp he, hfinite, fun hsame => ?_⟩
  rw [htext] at hsame
  rw [hsame, Except.map, htext] at hagain
  exact absurd (Except.ok.inj hagain) (by decide)

end Expr

end DifferentialAnalyzer
