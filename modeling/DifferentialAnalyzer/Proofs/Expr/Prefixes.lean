import Mathlib.Logic.Relation
import DifferentialAnalyzer.Proofs.Expr.ParserCompleteness

/-! Tokens that more tokens complete. What is read of some tokens depends on those behind it by
their first one only, so that readings can be put together from what they took, and what completes a
part completes the whole. -/

namespace DifferentialAnalyzer

namespace Expr

/-- Some tokens and what is left of them. -/
abbrev Reading := List Token → List Token → Prop

namespace Reading

def sign (kind : TokenKind) : Reading :=
  fun ts rest => ∃ t, ts = t :: rest ∧ t.kind = kind

def phrase (s : Symbol) : Reading :=
  fun ts rest => ∃ e, Derives s ts e rest

def arguments : Reading :=
  fun ts rest => ∃ args, Arguments ts args rest

end Reading

section Brackets

variable {ts us : List Token} {t : Token}

def opening (ts : List Token) : Nat :=
  ts.countP fun t => t.kind = .leftBracket

def closing (ts : List Token) : Nat :=
  ts.countP fun t => t.kind = .rightBracket

/-- No bracket is closed here that was opened before. -/
def Unclosing (ts : List Token) : Prop :=
  ∀ front, front <+: ts → closing front ≤ opening front

theorem unclosing_nil : Unclosing [] := by
  intro front hfront
  rw [List.prefix_nil.mp hfront]
  exact Nat.le_refl 0

theorem Unclosing.append (ht : Unclosing ts) (hu : Unclosing us) : Unclosing (ts ++ us) := by
  intro front hfront
  rcases List.prefix_or_prefix_of_prefix hfront (List.prefix_append ts us) with h | ⟨more, rfl⟩
  · exact ht front h
  · have hmore := hu more ((List.prefix_append_right_inj ts).mp hfront)
    have hall := ht ts List.prefix_rfl
    simp only [closing, opening, List.countP_append] at hmore hall ⊢
    omega

theorem unclosing_single (h : t.kind ≠ .rightBracket) : Unclosing [t] := by
  intro front hfront
  rcases List.prefix_cons_iff.mp hfront with rfl | ⟨more, rfl, hmore⟩
  · exact Nat.le_refl 0
  · rw [List.prefix_nil.mp hmore]
    simp [closing, h]

theorem Unclosing.cons (h : Unclosing ts) (ht : t.kind ≠ .rightBracket) : Unclosing (t :: ts) :=
  (unclosing_single ht).append h

/-- A bracket and what closes it. -/
theorem Unclosing.enclose {o c : Token} (h : Unclosing ts) (ho : o.kind = .leftBracket)
    (hc : c.kind = .rightBracket) : Unclosing (o :: (ts ++ [c])) := by
  intro front hfront
  rcases List.prefix_cons_iff.mp hfront with rfl | ⟨more, rfl, hmore⟩
  · exact Nat.le_refl 0
  · rcases List.prefix_concat_iff.mp hmore with rfl | hmore
    · have hall := h ts List.prefix_rfl
      simp only [closing, opening, List.countP_append, List.countP_cons, ho, hc] at hall ⊢
      simp
      omega
    · have hle := h more hmore
      simp only [closing, opening, List.countP_cons, ho] at hle ⊢
      simp
      omega

end Brackets

/-- These tokens begin with a bracket or an equals sign only if the others begin with it as well. -/
def Tame (rest' rest : List Token) : Prop :=
  ∀ t ∈ rest'.head?, t.kind = .leftBracket ∨ t.kind = .assign → rest.head? = some t

theorem tame_cons (t : Token) (ts us : List Token) : Tame (t :: ts) (t :: us) :=
  fun _ hu _ => hu

theorem tame_append {front : List Token} (h : front ≠ []) (ts us : List Token) :
    Tame (front ++ ts) (front ++ us) := by
  obtain ⟨t, front, rfl⟩ := List.exists_cons_of_ne_nil h
  exact tame_cons t _ _

theorem tame_of_kind {t : Token} (h : t.kind ≠ .leftBracket ∧ t.kind ≠ .assign)
    (ts rest : List Token) : Tame (t :: ts) rest := by
  rintro u ⟨⟩ hu
  exact absurd hu (not_or.mpr h)

theorem Tame.startsBracket {rest' rest : List Token} (h : Tame rest' rest)
    (hrest : startsBracket rest = false) : startsBracket rest' = false := by
  cases rest' with
  | nil => rfl
  | cons t ts =>
    by_contra hb
    have ht : t.kind = .leftBracket := by simpa [Expr.startsBracket] using hb
    obtain ⟨us, rfl⟩ := List.head?_eq_some_iff.mp (h t rfl (.inl ht))
    simp [Expr.startsBracket, ht] at hrest

/-- What begins a factor begins one also where something else follows it. -/
theorem Tame.startsFactor {rest' rest front : List Token} (h : Tame rest' rest) (hne : front ≠ [])
    (hs : startsFactor (front ++ rest) = true) : startsFactor (front ++ rest') = true := by
  rcases front with _ | ⟨t, _ | ⟨u, front⟩⟩
  · exact absurd rfl hne
  · rcases rest' with _ | ⟨u, us⟩
    · cases hk : t.kind <;> simp [Expr.startsFactor, hk, startsBinding] at hs ⊢
    · by_cases hu : u.kind = .assign
      · obtain ⟨vs, rfl⟩ := List.head?_eq_some_iff.mp (h u rfl (.inr hu))
        exact hs
      · cases hk : t.kind <;> simp [Expr.startsFactor, hk, startsBinding, hu] at hs ⊢
  · exact hs

/-- What a reading took, cut off from the rest. -/
structure Passed (D : Reading) (front rest : List Token) : Prop where
  ne_nil : front ≠ []
  unclosing : Unclosing front
  moved : ∀ rest', Tame rest' rest → D (front ++ rest') rest'

namespace Passed

variable {D E F : Reading} {front left right rest : List Token} {t : Token}

theorem imp (h : Passed D front rest) (hDE : ∀ {ts rest}, D ts rest → E ts rest) :
    Passed E front rest :=
  ⟨h.ne_nil, h.unclosing, fun rest' ht => hDE (h.moved rest' ht)⟩

/-- Two readings with a token between them. -/
theorem infixed (hl : Passed D left (t :: (right ++ rest))) (hr : Passed E right rest)
    (ht : t.kind ≠ .rightBracket)
    (hDE : ∀ {ts mid rest}, D ts (t :: mid) → E mid rest → F ts rest) :
    Passed F (left ++ t :: right) rest where
  ne_nil := List.append_ne_nil_of_left_ne_nil hl.ne_nil _
  unclosing := hl.unclosing.append (hr.unclosing.cons ht)
  moved rest' htame := by
    rw [List.append_assoc]
    exact hDE (hl.moved _ (tame_cons t _ _)) (hr.moved rest' htame)

end Passed

/-- The same for arguments, with the bracket that closes them. -/
structure PassedArguments (front : List Token) (s : Token) : Prop where
  unclosing : Unclosing front
  kind : s.kind = .rightBracket
  moved : ∀ rest, Reading.arguments (front ++ s :: rest) rest

theorem sign_ne_bracket {t : Token} {sign : Sign} (h : sign? t.kind = some sign) :
    t.kind ≠ .rightBracket := by
  rintro hk
  rw [hk] at h
  cases h

theorem Level.operator_ne {level : Level} {kind : TokenKind} {op : Operator}
    (h : level.operator? kind = some op) :
    kind ≠ .rightBracket ∧ kind ≠ .leftBracket ∧ kind ≠ .assign := by
  refine ⟨?_, ?_, ?_⟩ <;> rintro rfl <;> cases level <;> cases h

theorem quantifier_ne_bracket {kind : TokenKind} {q : Quantifier} (h : quantifier? kind = some q) :
    kind ≠ .rightBracket := by
  rintro rfl
  cases h

/-- A phrase is the same phrase before other tokens, if they do not begin in a way that goes on with
its last name. -/
theorem Derives.passed {s : Symbol} {ts rest : List Token} {e : Expr} (h : Derives s ts e rest) :
    ∃ front, ts = front ++ rest ∧ Passed (.phrase s) front rest := by
  induction h using Derives.rec (motive_2 := fun ts _ rest _ =>
    ∃ front s, ts = front ++ s :: rest ∧ PassedArguments front s) with
  | operand h ih =>
    obtain ⟨front, rfl, hp⟩ := ih
    exact ⟨front, rfl, hp.imp fun ⟨e, h⟩ => ⟨e, .operand h⟩⟩
  | @operator level ts mid rest t op lhs rhs hl ht hr ihl ihr =>
    obtain ⟨left, rfl, hpl⟩ := ihl
    obtain ⟨right, rfl, hpr⟩ := ihr
    exact ⟨left ++ t :: right, by simp, hpl.infixed hpr (Level.operator_ne ht).1
      fun ⟨_, hl⟩ ⟨_, hr⟩ => ⟨_, .operator hl ht hr⟩⟩
  | @beside ts mid rest lhs rhs hl hs hr ihl ihr =>
    obtain ⟨left, rfl, hne, hul, hleft⟩ := ihl
    obtain ⟨right, rfl, hne', hur, hright⟩ := ihr
    refine ⟨left ++ right, (List.append_assoc ..).symm,
      List.append_ne_nil_of_left_ne_nil hne _, hul.append hur, fun rest' htame => ?_⟩
    obtain ⟨e, he⟩ := hleft (right ++ rest') (tame_append hne' _ _)
    obtain ⟨e', he'⟩ := hright rest' htame
    rw [List.append_assoc]
    exact ⟨_, .beside he (htame.startsFactor hne' hs) he'⟩
  | @signed t sign ts rest e ht h ih =>
    obtain ⟨front, rfl, hne, hu, hmoved⟩ := ih
    refine ⟨t :: front, rfl, List.cons_ne_nil _ _, hu.cons (sign_ne_bracket ht),
      fun rest' htame => ?_⟩
    obtain ⟨e, h⟩ := hmoved rest' htame
    exact ⟨_, .signed ht h⟩
  | unsigned h ih =>
    obtain ⟨front, rfl, hp⟩ := ih
    exact ⟨front, rfl, hp.imp fun ⟨e, h⟩ => ⟨e, .unsigned h⟩⟩
  | base h ih =>
    obtain ⟨front, rfl, hp⟩ := ih
    exact ⟨front, rfl, hp.imp fun ⟨e, h⟩ => ⟨e, .base h⟩⟩
  | @raised ts mid rest t lhs rhs hl ht hr ihl ihr =>
    obtain ⟨left, rfl, hpl⟩ := ihl
    obtain ⟨right, rfl, hpr⟩ := ihr
    exact ⟨left ++ t :: right, by simp, hpl.infixed hpr (by simp [ht])
      fun ⟨_, hl⟩ ⟨_, hr⟩ => ⟨_, .raised hl ht hr⟩⟩
  | @number t rest ht =>
    exact ⟨[t], rfl, List.cons_ne_nil _ _, unclosing_single (by simp [ht]),
      fun _ _ => ⟨_, .number ht⟩⟩
  | @name t rest ht hs =>
    exact ⟨[t], rfl, List.cons_ne_nil _ _, unclosing_single (by simp [ht]),
      fun _ htame => ⟨_, .name ht (htame.startsBracket hs)⟩⟩
  | @call t o ts rest args ht ho h ih =>
    obtain ⟨front, s, rfl, hu, hs, hmoved⟩ := ih
    refine ⟨t :: o :: (front ++ [s]), by simp, List.cons_ne_nil _ _,
      (hu.enclose ho hs).cons (by simp [ht]), fun rest' htame => ?_⟩
    obtain ⟨args, h⟩ := hmoved rest'
    exact ⟨_, by simpa using Derives.call ht ho h⟩
  | @bracketed o s ts rest e ho h hs ih =>
    obtain ⟨front, rfl, -, hu, hmoved⟩ := ih
    refine ⟨o :: (front ++ [s]), by simp, List.cons_ne_nil _ _, hu.enclose ho hs,
      fun rest' htame => ?_⟩
    obtain ⟨e, h⟩ := hmoved (s :: rest') (tame_cons s _ _)
    exact ⟨_, by simpa using Derives.bracketed ho h hs⟩
  | @quantified t l n a c d s kind ts mid mid' rest first last body ht hl hn ha hf hc hx hd hb hs
      ihf ihx ihb =>
    obtain ⟨front₁, rfl, -, hu₁, hmoved₁⟩ := ihf
    obtain ⟨front₂, rfl, -, hu₂, hmoved₂⟩ := ihx
    obtain ⟨front₃, rfl, -, hu₃, hmoved₃⟩ := ihb
    have hu : Unclosing (n :: a :: (front₁ ++ c :: (front₂ ++ d :: front₃))) :=
      ((hu₁.append ((hu₂.append (hu₃.cons (by simp [hd]))).cons (by simp [hc]))).cons
        (by simp [ha])).cons (by simp [hn])
    refine ⟨t :: l :: (n :: a :: (front₁ ++ c :: (front₂ ++ d :: front₃)) ++ [s]), by simp,
      List.cons_ne_nil _ _, (hu.enclose hl hs).cons (quantifier_ne_bracket ht),
      fun rest' htame => ?_⟩
    obtain ⟨e₁, h₁⟩ := hmoved₁ (c :: (front₂ ++ d :: (front₃ ++ s :: rest'))) (tame_cons c _ _)
    obtain ⟨e₂, h₂⟩ := hmoved₂ (d :: (front₃ ++ s :: rest')) (tame_cons d _ _)
    obtain ⟨e₃, h₃⟩ := hmoved₃ (s :: rest') (tame_cons s _ _)
    exact ⟨_, by simpa using Derives.quantified ht hl hn ha h₁ hc h₂ hd h₃ hs⟩
  | @last ts rest s e h hs ih =>
    obtain ⟨front, rfl, -, hu, hmoved⟩ := ih
    refine ⟨front, s, rfl, hu, hs, fun rest' => ?_⟩
    obtain ⟨e, h⟩ := hmoved (s :: rest') (tame_cons s _ _)
    exact ⟨_, .last h hs⟩
  | @more ts mid rest c e es h hc hs ih ihs =>
    obtain ⟨front, rfl, -, hu, hmoved⟩ := ih
    obtain ⟨back, s, rfl, hub, hk, hargs⟩ := ihs
    refine ⟨front ++ c :: back, s, by simp, hu.append (hub.cons (by simp [hc])), hk,
      fun rest' => ?_⟩
    obtain ⟨e, h⟩ := hmoved (c :: (back ++ s :: rest')) (tame_cons c _ _)
    obtain ⟨es, hs⟩ := hargs rest'
    exact ⟨_, by simpa using Arguments.more h hc hs⟩

/-- More tokens, of certain kinds, complete these, whatever stands behind them. -/
def Viable (D : Reading) (pre : List Token) : Prop :=
  ∃ kinds : List TokenKind, kinds ≠ [] ∧ ∀ post, post.map (·.kind) = kinds →
    ∀ rest, D (pre ++ (post ++ rest)) rest

section Viable

variable {D E : Reading} {pre front : List Token}

theorem viable_of_kind (kind : TokenKind)
    (h : ∀ t rest, t.kind = kind → D (pre ++ t :: rest) rest) : Viable D pre := by
  refine ⟨[kind], List.cons_ne_nil _ _, fun post hpost rest => ?_⟩
  obtain ⟨t, us, rfl, ht, hus⟩ := List.map_eq_cons_iff.mp hpost
  obtain rfl := List.map_eq_nil_iff.mp hus
  exact h t rest ht

theorem viable_sign (kind : TokenKind) : Viable (.sign kind) [] :=
  viable_of_kind kind fun t _ ht => ⟨t, rfl, ht⟩

/-- A number is a phrase of every form. -/
theorem viable_phrase (s : Symbol) : Viable (.phrase s) [] :=
  viable_of_kind .number fun _ _ ht => ⟨_, (Derives.number ht).weaken (by
    cases s with
    | chain level => cases level <;> decide
    | _ => decide)⟩

namespace Viable

theorem imp (h : Viable D pre) (hDE : ∀ {ts rest}, D ts rest → E ts rest) : Viable E pre := by
  obtain ⟨kinds, hne, h⟩ := h
  exact ⟨kinds, hne, fun post hpost rest => hDE (h post hpost rest)⟩

theorem behind (h : Viable D pre)
    (hDE : ∀ {ts rest}, D (pre ++ ts) rest → E (front ++ (pre ++ ts)) rest) :
    Viable E (front ++ pre) := by
  obtain ⟨kinds, hne, h⟩ := h
  refine ⟨kinds, hne, fun post hpost rest => ?_⟩
  rw [List.append_assoc]
  exact hDE (h post hpost rest)

theorem before (h : Viable D pre) (hE : Viable E []) : Viable (Relation.Comp D E) pre := by
  obtain ⟨kinds, hne, h⟩ := h
  obtain ⟨kinds', -, h'⟩ := hE
  refine ⟨kinds ++ kinds', List.append_ne_nil_of_left_ne_nil hne _, fun post hpost rest => ?_⟩
  obtain ⟨us, vs, rfl, hus, hvs⟩ := List.map_eq_append_iff.mp hpost
  rw [List.append_assoc]
  exact ⟨_, h us hus (vs ++ rest), h' vs hvs rest⟩

end Viable

end Viable

end Expr

end DifferentialAnalyzer
