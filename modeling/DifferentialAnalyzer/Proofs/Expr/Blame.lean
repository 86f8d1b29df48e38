import DifferentialAnalyzer.Proofs.Expr.Prefixes

/-! Where a phrase goes wrong: at the first token that no completion of those before it has there,
or at a bracket that nothing closes. -/

namespace DifferentialAnalyzer

namespace Expr

open Relation (Comp)

/-- The error at some tokens, or at the end. -/
def complaint : List Token → ExprError
  | [] => .unexpectedEnd
  | t :: _ => unexpected t

/-- Errors that some tokens deserve: at a place with something of the kind `V` before it, at a
bracket among them, or at one that stands around them, if any. -/
inductive Blames (V : List Token → Prop) (around : Option Nat) : List Token → ExprError → Prop
  | stuck {pre : List Token} (h : V pre) (post : List Token) :
      Blames V around (pre ++ post) (complaint post)
  | within {b : Token} (hb : b.kind = .leftBracket) (pre : List Token) {post : List Token}
      (h : Unclosing post) : Blames V around (pre ++ b :: post) (.unclosedBracket b.offset)
  | around {offset : Nat} {ts : List Token} (ho : around = some offset) (h : Unclosing ts) :
      Blames V around ts (.unclosedBracket offset)

namespace Blames

variable {V V' : List Token → Prop} {around : Option Nat} {ts front : List Token} {err : ExprError}

theorem imp (h : Blames V none ts err) (hV : ∀ pre, pre <+: ts → V pre → V' pre) :
    Blames V' around ts err := by
  cases h with
  | @stuck pre h post => exact .stuck (hV pre (List.prefix_append pre post) h) post
  | within hb pre h => exact .within hb pre h
  | around ho h => cases ho

theorem behind (h : Blames V around ts err) (hfront : Unclosing front)
    (hV : ∀ pre, pre <+: ts → V pre → V' (front ++ pre)) : Blames V' around (front ++ ts) err := by
  cases h with
  | @stuck pre h post =>
    rw [← List.append_assoc]
    exact .stuck (hV pre (List.prefix_append pre post) h) post
  | within hb pre h =>
    rw [← List.append_assoc]
    exact .within hb (front ++ pre) h
  | around ho h => exact .around ho (hfront.append h)

theorem inside {b : Token} {around' : Option Nat} (h : Blames V (some b.offset) ts err)
    (hb : b.kind = .leftBracket) (hV : ∀ pre, pre <+: ts → V pre → V' (b :: pre)) :
    Blames V' around' (b :: ts) err := by
  cases h with
  | @stuck pre h post => exact .stuck (hV pre (List.prefix_append pre post) h) post
  | within hb' pre h => exact .within hb' (b :: pre) h
  | around ho h =>
    obtain rfl := Option.some.inj ho
    exact .within hb [] h

end Blames

section Steps

variable {α : Type} {D E : Reading} {around : Option Nat} {ts : List Token} {err : ExprError}

theorem Viable.afterSign {kind : TokenKind} {t : Token} {pre : List Token} (h : Viable E pre)
    (ht : t.kind = kind) : Viable (Comp (Reading.sign kind) E) (t :: pre) :=
  @Viable.behind E _ pre [t] h fun hE => ⟨_, ⟨t, rfl, ht⟩, hE⟩

theorem Blames.afterSign {kind : TokenKind} {t : Token} (h : Blames (Viable E) around ts err)
    (ht : t.kind = kind) (hk : kind ≠ .rightBracket) :
    Blames (Viable (Comp (Reading.sign kind) E)) around (t :: ts) err :=
  h.behind (unclosing_single (ht ▸ hk)) fun _ _ hpre => hpre.afterSign ht

/-- A bracket is open for what follows it. -/
theorem Blames.afterBracket {t : Token} (h : Blames (Viable E) (some t.offset) ts err)
    (ht : t.kind = .leftBracket) :
    Blames (Viable (Comp (Reading.sign .leftBracket) E)) around (t :: ts) err :=
  h.inside ht fun _ _ hpre => hpre.afterSign ht

theorem blames_expect {kind : TokenKind} {q : Token × List Token → Except ExprError α}
    (h : (expect kind ts >>= q) = .error err) (hE : Viable E [])
    (hq : ∀ t rest, ts = t :: rest → t.kind = kind → q (t, rest) = .error err →
      Blames (Viable (Comp (Reading.sign kind) E)) around (t :: rest) err) :
    Blames (Viable (Comp (Reading.sign kind) E)) around ts err := by
  have hnil : Viable (Comp (Reading.sign kind) E) [] := (viable_sign kind).before hE
  cases ts with
  | nil =>
    obtain rfl := Except.error.inj h
    exact .stuck hnil []
  | cons t rest =>
    by_cases ht : t.kind = kind
    · rw [expect, if_pos ht] at h
      exact hq t rest rfl ht h
    · rw [expect, if_neg ht] at h
      obtain rfl := Except.error.inj h
      exact .stuck hnil (t :: rest)

theorem blames_close {offset : Nat} (h : close offset ts = .error err) :
    Blames (Viable (Reading.sign .rightBracket)) (some offset) ts err := by
  cases ts with
  | nil =>
    obtain rfl := Except.error.inj h
    exact .around rfl unclosing_nil
  | cons t rest =>
    by_cases ht : t.kind = .rightBracket
    · rw [close, if_pos ht] at h
      cases h
    · rw [close, if_neg ht] at h
      obtain rfl := Except.error.inj h
      exact .stuck (viable_sign .rightBracket) (t :: rest)

/-- Nothing that is read here goes on with a name before it. -/
def Apart (E : Reading) : Prop :=
  ∀ ts rest, E ts rest → ∀ us, Tame ts us

theorem apart_sign {kind : TokenKind} (h : kind ≠ .leftBracket ∧ kind ≠ .assign) :
    Apart (Reading.sign kind) := by
  rintro _ rest ⟨t, rfl, ht⟩ us
  exact tame_of_kind (ht ▸ h) rest us

theorem Apart.comp (h : Apart D) (E : Reading) : Apart (Comp D E) :=
  fun ts _ ⟨mid, hD, _⟩ => h ts mid hD

/-- Any expression. -/
abbrev Reading.whole : Reading :=
  .phrase (.chain .comparison)

theorem passed_of_phrase {power : Nat} {rest : List Token} {e : Expr}
    (h : phrase power ts = .ok (e, rest)) :
    ∃ front, ts = front ++ rest ∧ Passed (.phrase (.ofPower power)) front rest :=
  ((sound _).climb h).1.passed

theorem blames_phrase {q : Expr × List Token → Except ExprError α}
    (h : (phrase 0 ts >>= q) = .error err) (hE : Viable E []) (hapart : Apart E)
    (hphrase : ∀ err, phrase 0 ts = .error err → Blames (Viable Reading.whole) none ts err)
    (hq : ∀ e rest, phrase 0 ts = .ok (e, rest) → q (e, rest) = .error err →
      Blames (Viable E) around rest err) :
    Blames (Viable (Comp Reading.whole E)) around ts err := by
  rcases bind_eq_error_iff.mp h with hp | ⟨⟨e, rest⟩, hp, hrest⟩
  · exact (hphrase err hp).imp fun pre _ hpre => hpre.before hE
  · obtain ⟨front, rfl, hpassed⟩ := passed_of_phrase hp
    refine (hq e rest hp hrest).behind hpassed.unclosing fun pre _ hpre => ?_
    exact hpre.behind fun hE => ⟨_, hpassed.moved _ (hapart _ _ hE rest), hE⟩

end Steps

/-- Enough of some tokens to see whether a factor begins there. -/
def Settled : List Token → Prop
  | [] => False
  | [t] => t.kind ≠ .name
  | _ => True

namespace Settled

variable {t : Token} {pre front : List Token}

theorem ne_nil (h : Settled pre) : pre ≠ [] := by
  rintro rfl
  exact h

theorem cons (ht : t.kind ≠ .name) (pre : List Token) : Settled (t :: pre) := by
  cases pre with
  | nil => exact ht
  | cons u pre => trivial

theorem append (hf : front ≠ []) (hp : pre ≠ []) : Settled (front ++ pre) := by
  obtain ⟨t, front, rfl⟩ := List.exists_cons_of_ne_nil hf
  obtain ⟨u, pre, rfl⟩ := List.exists_cons_of_ne_nil hp
  cases front <;> trivial

theorem startsFactor_eq (h : Settled pre) (us vs : List Token) :
    startsFactor (pre ++ us) = startsFactor (pre ++ vs) := by
  rcases pre with _ | ⟨t, _ | ⟨u, pre⟩⟩
  · cases h
  · have ht : t.kind ≠ .name := h
    simp only [List.singleton_append, startsFactor]
    cases hk : t.kind <;> first | rfl | exact absurd hk ht
  · rfl

end Settled

/-- Tokens that can be completed to a phrase. If a factor begins there, that is settled by them. -/
structure Begun (s : Symbol) (ts pre : List Token) : Prop where
  viable : Viable (Reading.phrase s) pre
  settled : startsFactor ts = true → Settled pre

theorem Begun.weaken {s s' : Symbol} {ts pre : List Token} (h : Begun s ts pre)
    (hle : s'.left ≤ s.left) : Begun s' ts pre :=
  ⟨h.viable.imp fun ⟨e, he⟩ => ⟨e, he.weaken hle⟩, h.settled⟩

/-- Errors in phrases of fewer tokens are where they should be. -/
def Blamed (n : Nat) : Prop :=
  ∀ {ts : List Token}, ts.length < n → Readable ts → ∀ {power : Nat} {err : ExprError},
    phrase power ts = .error err → Blames (Begun (.ofPower power) ts) none ts err

theorem Blamed.whole {n : Nat} (h : Blamed n) {ts : List Token} (hlen : ts.length < n)
    (hread : Readable ts) (err : ExprError) (hp : phrase 0 ts = .error err) :
    Blames (Viable Reading.whole) none ts err :=
  (h hlen hread hp).imp fun _ _ hpre => hpre.viable

section Operands

variable {n offset : Nat} {ts : List Token} {err : ExprError}

/-- How arguments go wrong. -/
theorem argumentsOf_eq_error (h : argumentsOf offset ts = .error err) :
    phrase 0 ts = .error err ∨ ∃ e mid, phrase 0 ts = .ok (e, mid) ∧
      (mid = [] ∧ err = .unclosedBracket offset ∨ ∃ t after, mid = t :: after ∧
        (t.kind = .comma ∧ argumentsOf offset after = .error err ∨ err = unexpected t)) := by
  rw [argumentsOf, arguments, climb_eq_phrase 0 (Nat.le_refl _)] at h
  rcases bind_eq_error_iff.mp h with hp | ⟨⟨e, mid⟩, hp, hmid⟩
  · exact .inl hp
  refine .inr ⟨e, mid, hp, ?_⟩
  cases mid with
  | nil => exact .inl ⟨rfl, (Except.error.inj hmid).symm⟩
  | cons t after =>
    refine .inr ⟨t, after, rfl, ?_⟩
    have hlt := length_lt_of_climb hp
    rw [List.length_cons] at hlt
    cases hk : t.kind <;> simp only [hk] at hmid
    case comma =>
      rw [arguments_eq_argumentsOf offset (by simp only [callsPerToken]; omega)] at hmid
      rcases bind_eq_error_iff.mp hmid with hargs | ⟨x, -, hx⟩
      · exact .inl ⟨rfl, hargs⟩
      · cases hx
    case rightBracket => cases hmid
    all_goals exact .inr (Except.error.inj hmid).symm

theorem Blamed.arguments (hb : Blamed n) (hlen : ts.length < n) (hread : Readable ts)
    (h : argumentsOf offset ts = .error err) :
    Blames (Viable Reading.arguments) (some offset) ts err := by
  have hlast : ∀ {us rest}, Comp Reading.whole (Reading.sign .rightBracket) us rest →
      Reading.arguments us rest := by
    rintro us rest ⟨_, ⟨e, he⟩, s, rfl, hs⟩
    exact ⟨_, .last he hs⟩
  induction hn : ts.length using Nat.strongRecOn generalizing ts with
  | _ m ih =>
    subst hn
    rcases argumentsOf_eq_error h with hp | ⟨e, mid, hp, hmid⟩
    · exact (hb.whole hlen hread err hp).imp fun pre _ hpre =>
        (hpre.before (viable_sign .rightBracket)).imp hlast
    have hbehind := ((sound _).climb hp).1.behind
    obtain ⟨front, rfl, hpassed⟩ := passed_of_phrase hp
    rcases hmid with ⟨rfl, rfl⟩ | ⟨t, after, rfl, ⟨ht, hargs⟩ | rfl⟩
    · rw [List.append_nil]
      exact .around rfl hpassed.unclosing
    · have hbehind := (Behind.tail t after).trans hbehind
      have hlt := hbehind.length_lt
      have hafter := ih _ hlt (by omega) (hread.behind hbehind) hargs rfl
      refine (hafter.afterSign ht (by decide)).behind hpassed.unclosing fun pre _ hpre => ?_
      refine hpre.behind fun ⟨us, ⟨c, hts, hc⟩, es, hes⟩ => ?_
      rw [hts]
      obtain ⟨e, he⟩ := hpassed.moved (c :: us) (tame_of_kind (by simp [hc]) _ _)
      exact ⟨_, .more he hc hes⟩
    · refine .stuck (viable_of_kind .rightBracket fun s rest hs => ?_) (t :: after)
      obtain ⟨e, he⟩ := hpassed.moved (s :: rest) (tame_of_kind (by simp [hs]) _ _)
      exact ⟨_, .last he hs⟩

/-- What is read behind the word of a sum or product, from the body back to the bracket. -/
def Reading.body : Reading :=
  Comp Reading.whole (Reading.sign .rightBracket)

def Reading.end : Reading :=
  Comp Reading.whole (Comp (Reading.sign .comma) Reading.body)

def Reading.start : Reading :=
  Comp (Reading.sign .assign) (Comp Reading.whole (Comp (Reading.sign .comma) Reading.end))

def Reading.range : Reading :=
  Comp (Reading.sign .leftBracket) (Comp (Reading.sign .name) Reading.start)

theorem rangeOf_bind (kind : Quantifier) (ts : List Token) : rangeOf kind ts =
    (expect .leftBracket ts >>= fun l => expect .name l.2 >>= fun n => expect .assign n.2 >>=
      fun a => phrase 0 a.2 >>= fun first => expect .comma first.2 >>= fun c =>
      phrase 0 c.2 >>= fun last => expect .comma last.2 >>= fun d => phrase 0 d.2 >>= fun body =>
      close l.1.offset body.2 >>= fun rest =>
      .ok (.quantified kind n.1.text first.1 last.1 body.1, rest)) := by
  have hclimb : ∀ us : List Token, us.length < ts.length →
      climb (callsPerToken * ts.length) 0 us = phrase 0 us :=
    fun us hlt => climb_eq_phrase 0 (by simp only [callsPerToken]; omega)
  rw [rangeOf, range]
  refine bind_congr_ok fun l hl => bind_congr_ok fun n hn => bind_congr_ok fun a ha => ?_
  have h₁ := Steady.length_lt_of_expect hl
  have h₂ := Steady.length_lt_of_expect hn
  have h₃ := Steady.length_lt_of_expect ha
  dsimp only
  rw [hclimb a.2 (by omega)]
  refine bind_congr_ok fun first hf => bind_congr_ok fun c hc => ?_
  have h₄ := length_lt_of_climb hf
  have h₅ := Steady.length_lt_of_expect hc
  rw [hclimb c.2 (by omega)]
  refine bind_congr_ok fun last hx => bind_congr_ok fun d hd => ?_
  have h₆ := length_lt_of_climb hx
  have h₇ := Steady.length_lt_of_expect hd
  rw [hclimb d.2 (by omega)]

theorem behind_of_eq_cons {t : Token} {rest : List Token} (h : ts = t :: rest) : Behind rest ts :=
  h ▸ .tail t rest

theorem viable_body : Viable Reading.body [] :=
  (viable_phrase _).before (viable_sign .rightBracket)

theorem viable_end : Viable Reading.end [] :=
  (viable_phrase _).before ((viable_sign .comma).before viable_body)

theorem viable_start : Viable Reading.start [] :=
  (viable_sign .assign).before ((viable_phrase _).before ((viable_sign .comma).before viable_end))

theorem Blamed.range (hb : Blamed n) (hlen : ts.length < n) (hread : Readable ts)
    {kind : Quantifier} (h : rangeOf kind ts = .error err) :
    Blames (Viable Reading.range) none ts err := by
  have hcomma : ∀ E, Apart (Comp (Reading.sign .comma) E) :=
    (apart_sign (by decide)).comp
  rw [rangeOf_bind] at h
  refine blames_expect h ((viable_sign .name).before viable_start) fun l ts₁ hts₁ hl h => ?_
  have hb₁ : Behind ts₁ ts := behind_of_eq_cons hts₁
  refine (blames_expect h viable_start fun n ts₂ hts₂ hn h => ?_).afterBracket hl
  have hb₂ : Behind ts₂ ts := (behind_of_eq_cons hts₂).trans hb₁
  refine Blames.afterSign ?_ hn (by decide)
  refine blames_expect h ((viable_phrase _).before ((viable_sign .comma).before viable_end))
    fun a ts₃ hts₃ ha h => Blames.afterSign ?_ ha (by decide)
  have hb₃ : Behind ts₃ ts := (behind_of_eq_cons hts₃).trans hb₂
  refine blames_phrase h ((viable_sign .comma).before viable_end) (hcomma _)
    (hb.whole (Nat.lt_trans hb₃.length_lt hlen) (hread.behind hb₃)) fun first ts₄ hf h => ?_
  have hb₄ : Behind ts₄ ts := ((sound _).climb hf).1.behind.trans hb₃
  refine blames_expect h viable_end fun c ts₅ hts₅ hc h => Blames.afterSign ?_ hc (by decide)
  have hb₅ : Behind ts₅ ts := (behind_of_eq_cons hts₅).trans hb₄
  refine blames_phrase h ((viable_sign .comma).before viable_body) (hcomma _)
    (hb.whole (Nat.lt_trans hb₅.length_lt hlen) (hread.behind hb₅)) fun last ts₆ hx h => ?_
  have hb₆ : Behind ts₆ ts := ((sound _).climb hx).1.behind.trans hb₅
  refine blames_expect h viable_body fun d ts₇ hts₇ hd h => Blames.afterSign ?_ hd (by decide)
  have hb₇ : Behind ts₇ ts := (behind_of_eq_cons hts₇).trans hb₆
  refine blames_phrase h (viable_sign .rightBracket) (apart_sign (by decide))
    (hb.whole (Nat.lt_trans hb₇.length_lt hlen) (hread.behind hb₇)) fun body ts₈ _ h => ?_
  refine blames_close ?_
  rcases bind_eq_error_iff.mp h with h | ⟨_, _, h⟩
  · exact h
  · cases h

theorem Viable.ofArguments {pre : List Token}
    (h : Viable (Comp (Reading.sign .name)
      (Comp (Reading.sign .leftBracket) Reading.arguments)) pre) :
    Viable (Reading.phrase .atom) pre := by
  refine h.imp ?_
  rintro us rest ⟨_, ⟨t, rfl, ht⟩, _, ⟨s, rfl, hs⟩, args, hargs⟩
  exact ⟨_, .call ht hs hargs⟩

theorem Viable.ofBracketed {pre : List Token}
    (h : Viable (Comp (Reading.sign .leftBracket) Reading.body) pre) :
    Viable (Reading.phrase .atom) pre := by
  refine h.imp ?_
  rintro us rest ⟨_, ⟨t, rfl, ht⟩, _, ⟨e, he⟩, s, rfl, hs⟩
  exact ⟨_, .bracketed ht he hs⟩

theorem Viable.ofRange {t : Token} {kind : Quantifier} {pre : List Token}
    (ht : quantifier? t.kind = some kind) (h : Viable Reading.range pre) :
    Viable (Reading.phrase .atom) (t :: pre) := by
  refine @Viable.behind Reading.range _ pre [t] h ?_
  rintro us rest ⟨_, ⟨l, hts, hl⟩, _, ⟨n, rfl, hn⟩, _, ⟨a, rfl, ha⟩, _, ⟨first, hf⟩, _,
    ⟨c, rfl, hc⟩, _, ⟨last, hx⟩, _, ⟨d, rfl, hd⟩, _, ⟨body, hb⟩, s, rfl, hs⟩
  rw [hts]
  exact ⟨_, .quantified ht hl hn ha hf hc hx hd hb hs⟩

theorem Viable.ofSigned {t : Token} {sign : Sign} {pre : List Token}
    (ht : sign? t.kind = some sign) (h : Viable (Reading.phrase .unary) pre) :
    Viable (Reading.phrase .unary) (t :: pre) :=
  @Viable.behind (Reading.phrase .unary) _ pre [t] h fun ⟨_, he⟩ => ⟨_, .signed ht he⟩

theorem Viable.weaken {s s' : Symbol} {pre : List Token} (h : Viable (Reading.phrase s) pre)
    (hle : s'.left ≤ s.left) : Viable (Reading.phrase s') pre :=
  h.imp fun ⟨e, he⟩ => ⟨e, he.weaken hle⟩

theorem begun_of_atom {s : Symbol} {pre : List Token} (h : Viable (Reading.phrase .atom) pre)
    (hs : startsFactor ts = true → Settled pre) : Begun s ts pre :=
  ⟨h.weaken (by cases s with | chain level => cases level <;> decide | _ => decide), hs⟩

theorem Blamed.leading (hb : Blamed n) (hlen : ts.length ≤ n) (hread : Readable ts)
    (h : leading ts = .error err) : Blames (Begun .unary ts) none ts err := by
  cases ts with
  | nil =>
    obtain rfl : err = .unexpectedEnd := (Except.error.inj h).symm
    have hbegun : Begun .unary [] [] := ⟨viable_phrase _, fun hs => by cases hs⟩
    exact .stuck hbegun []
  | cons t ts =>
    rw [List.length_cons] at hlen
    have hread' := hread.behind (.tail t ts)
    have hsign : ∀ sign, sign? t.kind = some sign →
        (phrase signPower ts >>= fun x => .ok (.unary sign x.1, x.2)) =
          (.error err : Parsed) →
        Blames (Begun .unary (t :: ts)) none (t :: ts) err := by
      intro sign ht h
      rcases bind_eq_error_iff.mp h with h | ⟨_, _, h⟩
      · refine (hb (by omega) hread' h).behind (unclosing_single (sign_ne_bracket ht))
          fun pre _ hpre => ⟨hpre.viable.ofSigned ht, fun hs => ?_⟩
        exact .cons (by rintro hk; rw [hk] at ht; cases ht) pre
      · cases h
    have hrange : ∀ kind, quantifier? t.kind = some kind → rangeOf kind ts = .error err →
        Blames (Begun .unary (t :: ts)) none (t :: ts) err := by
      intro kind ht h
      refine (hb.range (by omega) hread' h).behind (unclosing_single (quantifier_ne_bracket ht))
        fun pre _ hpre => begun_of_atom (hpre.ofRange ht) fun hs => ?_
      exact .cons (by rintro hk; rw [hk] at ht; cases ht) pre
    have hother : startsFactor (t :: ts) = false → err = unexpected t →
        Blames (Begun .unary (t :: ts)) none (t :: ts) err := by
      rintro hs rfl
      have hbegun : Begun .unary (t :: ts) [] := by
        refine ⟨viable_phrase _, fun hs' => ?_⟩
        rw [hs] at hs'
        cases hs'
      exact .stuck hbegun (t :: ts)
    rw [leading_cons] at h
    cases hk : t.kind <;> simp only [hk] at h
    case number =>
      obtain ⟨d, hd⟩ := Option.isSome_iff_exists.mp (hread t List.mem_cons_self hk)
      simp [hd] at h
    case name =>
      cases ts with
      | nil => cases h
      | cons s after =>
        by_cases hs : s.kind = .leftBracket
        · simp only [if_pos hs] at h
          rcases bind_eq_error_iff.mp h with h | ⟨_, _, h⟩
          · rw [List.length_cons] at hlen
            have hargs := hb.arguments (by omega) (hread'.behind (.tail s after)) h
            have hcall : Blames (fun pre => pre ≠ [] ∧
                Viable (Comp (Reading.sign .leftBracket) Reading.arguments) pre) none
                (s :: after) err :=
              hargs.inside hs fun pre _ hpre => ⟨List.cons_ne_nil s pre, hpre.afterSign hs⟩
            refine hcall.behind (unclosing_single (by simp [hk])) fun pre _ ⟨hne, hpre⟩ => ?_
            exact begun_of_atom (hpre.afterSign hk).ofArguments
              fun _ => .append (List.cons_ne_nil t []) hne
          · cases h
        · simp only [if_neg hs] at h
          cases h
    case leftBracket =>
      have hclose : Blames (Viable Reading.body) (some t.offset) ts err := by
        refine blames_phrase h (viable_sign .rightBracket) (apart_sign (by decide))
          (hb.whole (by omega) hread') fun e rest _ h => blames_close ?_
        rcases bind_eq_error_iff.mp h with h | ⟨_, _, h⟩
        · exact h
        · cases h
      refine hclose.inside hk fun pre _ hpre =>
        begun_of_atom (hpre.afterSign hk).ofBracketed fun _ => ?_
      exact .cons (by simp [hk]) pre
    case plus => exact hsign .plus (by rw [hk]; rfl) h
    case minus => exact hsign .minus (by rw [hk]; rfl) h
    case sum => exact hrange .sum (by rw [hk]; rfl) h
    case product => exact hrange .product (by rw [hk]; rfl) h
    all_goals exact hother (by simp [startsFactor, hk]) (Except.error.inj h).symm

end Operands

/-- What an operator makes of the phrases on its sides. -/
theorem exists_joint {kind : TokenKind} {b : BindingPower} {op : Operator}
    (h : operator? kind = some (b, op)) : ∃ s : Symbol,
      (∀ power, power ≤ b.left → (Symbol.ofPower power).left ≤ s.left) ∧ b.right ≤ s.left + 1 ∧
      ∀ {s' ts t mid rest lhs rhs}, t.kind = kind → b.left ≤ s'.left →
        Derives s' ts lhs (t :: mid) → Derives (.ofPower b.right) mid rhs rest →
        Derives s ts (.binary op lhs rhs) rest := by
  rcases operator?_eq_some h with ⟨level, hlevel, rfl⟩ | ⟨rfl, rfl, rfl⟩
  · refine ⟨.chain level, fun power hle => Symbol.left_ofPower_le hle, Nat.le_refl _, ?_⟩
    intro s' ts t mid rest lhs rhs ht hle hl hr
    rw [Symbol.ofPower_succ_left] at hr
    exact .operator (hl.toChain hle) (ht ▸ hlevel) hr
  · refine ⟨.power, fun power _ => Nat.le_trans (Symbol.left_ofPower_le_five power) (by decide),
      by decide, ?_⟩
    intro s' ts t mid rest lhs rhs ht hle hl hr
    exact .raised (hl.weaken hle) ht hr

/-- What can stand behind an operand. -/
theorem stops_or_goes_on (power : Nat) (ts : List Token) : Stops power ts ∨
    (∃ t rest b op, ts = t :: rest ∧ operator? t.kind = some (b, op) ∧ power ≤ b.left) ∨
    startsFactor ts = true ∧ power ≤ besidePower.left := by
  cases ts with
  | nil => exact .inl trivial
  | cons t rest =>
    by_contra hnone
    obtain ⟨hstops, hnone⟩ := not_or.mp hnone
    obtain ⟨hoperator, hfactor⟩ := not_or.mp hnone
    refine hstops ⟨fun b op hb => ?_, fun hs => ?_⟩
    · exact Nat.lt_of_not_le fun hle => hoperator ⟨t, rest, b, op, rfl, hb, hle⟩
    · exact Nat.lt_of_not_le fun hle => hfactor ⟨hs, hle⟩

section Chains

variable {n power : Nat} {s : Symbol} {ts mid : List Token} {lhs : Expr} {err : ExprError}

theorem Blamed.operator (hb : Blamed n) {t : Token} {b : BindingPower} {op : Operator}
    (hs : Derives s ts lhs (t :: mid)) (hop : operator? t.kind = some (b, op))
    (hle : power ≤ b.left) (hleft : b.left ≤ s.left) (hlen : mid.length < n)
    (hread : Readable mid) (h : phrase b.right mid = .error err) :
    Blames (Begun (.ofPower power) ts) none ts err := by
  obtain ⟨s', hs', -, hjoint⟩ := exists_joint hop
  obtain ⟨front, rfl, hpassed⟩ := hs.passed
  have ht : t.kind ≠ .rightBracket := by
    rintro hk
    rw [hk] at hop
    cases hop
  have hmid : Blames (fun pre => ∃ pre', pre = t :: pre' ∧
      Viable (Reading.phrase (.ofPower b.right)) pre') none (t :: mid) err :=
    (hb hlen hread h).behind (unclosing_single ht) fun pre _ hpre => ⟨pre, rfl, hpre.viable⟩
  refine hmid.behind hpassed.unclosing ?_
  rintro _ - ⟨pre, rfl, hpre⟩
  refine ⟨?_, fun _ => .append hpassed.ne_nil (List.cons_ne_nil t pre)⟩
  rw [← List.singleton_append, ← List.append_assoc]
  refine hpre.behind fun {us rest} ⟨rhs, hrhs⟩ => ?_
  obtain ⟨lhs', hlhs⟩ := hpassed.moved (t :: (pre ++ us)) (tame_cons t _ _)
  rw [List.append_assoc]
  exact ⟨_, (hjoint rfl hleft hlhs hrhs).weaken (hs' power hle)⟩

theorem Blamed.beside (hb : Blamed n) (hs : Derives s ts lhs mid) (hf : startsFactor mid = true)
    (hle : power ≤ besidePower.left) (hleft : besidePower.left ≤ s.left) (hlen : mid.length < n)
    (hread : Readable mid) (h : phrase besidePower.right mid = .error err) :
    Blames (Begun (.ofPower power) ts) none ts err := by
  obtain ⟨front, rfl, hpassed⟩ := hs.passed
  refine (hb hlen hread h).behind hpassed.unclosing ?_
  rintro pre ⟨post, rfl⟩ hpre
  have hsettled := hpre.settled hf
  refine ⟨?_, fun _ => .append hpassed.ne_nil hsettled.ne_nil⟩
  refine hpre.viable.behind fun {us rest} ⟨rhs, hrhs⟩ => ?_
  obtain ⟨lhs', hlhs⟩ := hpassed.moved (pre ++ us) (tame_append hsettled.ne_nil _ _)
  have hf' : startsFactor (pre ++ us) = true := hsettled.startsFactor_eq us post ▸ hf
  have hjoint : Derives (.chain .multiplicative) _ (.binary .multiply lhs' rhs) rest :=
    .beside (hlhs.toChain hleft) hf' (hrhs.power_of_startsFactor hf')
  exact ⟨_, hjoint.weaken (Symbol.left_ofPower_le hle)⟩

theorem Blamed.phraseFrom (hb : Blamed n) (hs : Derives s ts lhs mid)
    (hpower : (Symbol.ofPower power).left ≤ s.left) (hstops : Stops (s.left + 1) mid)
    (hlen : mid.length < n) (hread : Readable mid) (h : phraseFrom power lhs mid = .error err) :
    Blames (Begun (.ofPower power) ts) none ts err := by
  induction hm : mid.length using Nat.strongRecOn generalizing s lhs mid with
  | _ m ih =>
    subst hm
    rcases stops_or_goes_on power mid with hstop | ⟨t, rest, b, op, rfl, hop, hle⟩ | ⟨hf, hle⟩
    · rw [phraseFrom_of_stops lhs hstop] at h
      cases h
    · have hleft : b.left ≤ s.left := Nat.le_of_lt_succ (hstops.1 b op hop)
      have htail := Behind.tail t rest
      rw [phraseFrom_operator hop hle] at h
      rcases bind_eq_error_iff.mp h with h | ⟨⟨rhs, after⟩, hr, h⟩
      · exact hb.operator hs hop hle hleft (Nat.lt_trans htail.length_lt hlen)
          (hread.behind htail) h
      · obtain ⟨hright, hafter⟩ := (sound _).climb hr
        obtain ⟨s', hs', hright', hjoint⟩ := exists_joint hop
        have hbehind := hright.behind.trans htail
        exact ih _ hbehind.length_lt (hjoint rfl hleft hs hright) (hs' power hle)
          (hafter.mono hright') (Nat.lt_trans hbehind.length_lt hlen) (hread.behind hbehind) h rfl
    · cases mid with
      | nil => cases hf
      | cons t rest =>
        have hleft : besidePower.left ≤ s.left := Nat.le_of_lt_succ (hstops.2 hf)
        rw [phraseFrom_factor hf hle] at h
        rcases bind_eq_error_iff.mp h with h | ⟨⟨rhs, after⟩, hr, h⟩
        · exact hb.beside hs hf hle hleft hlen hread h
        · obtain ⟨hright, hafter⟩ := (sound _).climb hr
          have hbehind := hright.behind
          have hjoint : Derives (.chain .multiplicative) ts (.binary .multiply lhs rhs) after :=
            .beside (hs.toChain hleft) hf (Derives.power_of_startsFactor hright hf)
          exact ih _ hbehind.length_lt hjoint (Symbol.left_ofPower_le hle) hafter
            (Nat.lt_trans hbehind.length_lt hlen) (hread.behind hbehind) h rfl

theorem blamed (n : Nat) : Blamed n := by
  induction n with
  | zero =>
    intro ts hlen
    cases hlen
  | succ n ih =>
    intro ts hlen hread power err h
    rw [phrase_eq] at h
    rcases bind_eq_error_iff.mp h with h | ⟨⟨lhs, mid⟩, hl, h⟩
    · exact (ih.leading (Nat.le_of_lt_succ hlen) hread h).imp fun pre _ hpre =>
        hpre.weaken (Symbol.left_ofPower_le_five power)
    · obtain ⟨s, hs, hle, hstops⟩ := (sound _).operand hl
      have hlt := hs.behind.length_lt
      exact ih.phraseFrom hs (Nat.le_trans (Symbol.left_ofPower_le_five power) hle) hstops
        (by omega) (hread.behind hs.behind) h

end Chains

/-- Where a phrase goes wrong. -/
theorem blames_of_phrase {ts : List Token} (hread : Readable ts) {power : Nat} {err : ExprError}
    (h : phrase power ts = .error err) : Blames (Begun (.ofPower power) ts) none ts err :=
  blamed (ts.length + 1) (Nat.lt_succ_self _) hread h

end Expr

end DifferentialAnalyzer
