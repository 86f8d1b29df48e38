import DifferentialAnalyzer.Proofs.Expr.Blame
import DifferentialAnalyzer.Proofs.Expr.Tokens

/-! What a text is refused for. Its first tokens, up to the one that is named, are also the first of
a text that is read, and a bracket that is named has none that closes it. -/

namespace DifferentialAnalyzer

namespace Expr

/-- More tokens, of certain kinds, make a program of these. -/
def ViableProgram (pre : List Token) : Prop :=
  ∃ kinds : List TokenKind, kinds ≠ [] ∧
    ∀ post, post.map (·.kind) = kinds → ∃ e, Program (pre ++ post) e

theorem viableProgram_of_kind {pre : List Token} (kind : TokenKind)
    (h : ∀ t, t.kind = kind → ∃ e, Program (pre ++ [t]) e) : ViableProgram pre := by
  refine ⟨[kind], List.cons_ne_nil _ _, fun post hpost => ?_⟩
  obtain ⟨t, us, rfl, ht, hus⟩ := List.map_eq_cons_iff.mp hpost
  obtain rfl := List.map_eq_nil_iff.mp hus
  exact h t ht

theorem viableProgram_nil : ViableProgram [] :=
  viableProgram_of_kind .number fun t ht =>
    ⟨_, .expression rfl ((Derives.number ht).weaken (by decide))⟩

/-- Tokens that can be completed to a program. If a binding begins there, it does so in them. -/
structure Entered (ts pre : List Token) : Prop where
  viable : ViableProgram pre
  bound : startsBinding ts = true → ∀ us, startsBinding (pre ++ us) = true

/-- A statement goes wrong, or ends too early. -/
def Fails (steps : Nat) (ts : List Token) (err : ExprError) : Prop :=
  statement steps ts = .error err ∨
    ∃ e t rest, statement steps ts = .ok (e, t :: rest) ∧ err = unexpected t

theorem leading_of_not_startsPhrase {t : Token} (h : startsPhrase t.kind = false)
    (ts : List Token) : leading (t :: ts) = .error (unexpected t) := by
  rw [leading_cons]
  cases hk : t.kind <;> simp only [hk, startsPhrase, Bool.true_eq_false] at h ⊢

theorem startsBinding_of_not_startsPhrase {t : Token} (h : startsPhrase t.kind = false)
    (ts : List Token) : startsBinding (t :: ts) = false := by
  cases ts with
  | nil => rfl
  | cons u ts =>
    have hk : t.kind ≠ .name := by
      rintro hk
      rw [hk] at h
      cases h
    simp [startsBinding, hk]

/-- No statement begins at such a token. -/
theorem Fails.eq_unexpected {steps : Nat} {t : Token} {ts : List Token} {err : ExprError}
    (h : Fails (steps + 1) (t :: ts) err) (ht : startsPhrase t.kind = false) :
    err = unexpected t := by
  have hstatement : statement (steps + 1) (t :: ts) = .error (unexpected t) := by
    rw [statement, if_neg (by simp [startsBinding_of_not_startsPhrase ht]), expression_eq,
      phrase_eq, leading_of_not_startsPhrase ht]
    rfl
  rcases h with h | ⟨_, _, _, h, -⟩
  · exact (Except.error.inj (hstatement.symm.trans h)).symm
  · cases hstatement.symm.trans h

theorem skipSemicolon_eq_cons {mid after : List Token} {t : Token}
    (h : skipSemicolon mid = t :: after) :
    mid = t :: after ∧ t.kind ≠ .semicolon ∨ ∃ s, mid = s :: t :: after ∧ s.kind = .semicolon := by
  cases mid with
  | nil => cases h
  | cons s rest =>
    by_cases hs : s.kind = .semicolon
    · rw [skipSemicolon, if_pos hs] at h
      exact .inr ⟨s, by rw [h], hs⟩
    · rw [skipSemicolon, if_neg hs] at h
      obtain ⟨rfl, rfl⟩ := List.cons.inj h
      exact .inl ⟨rfl, hs⟩

theorem fails_of_bind {steps : Nat} {ts : List Token} {err : ExprError} {f : Expr → Expr}
    (h : (statement steps ts >>= fun x => .ok (f x.1, x.2)) = (.error err : Parsed) ∨
      ∃ e t rest, (statement steps ts >>= fun x => .ok (f x.1, x.2)) =
        (.ok (e, t :: rest) : Parsed) ∧ err = unexpected t) : Fails steps ts err := by
  rcases h with h | ⟨e, t, rest, h, he⟩
  · rcases bind_eq_error_iff.mp h with h | ⟨_, _, h⟩
    · exact .inl h
    · cases h
  · obtain ⟨⟨e', rest'⟩, hs, h⟩ := bind_eq_ok_iff.mp h
    obtain ⟨-, rfl⟩ := Prod.mk.inj (Except.ok.inj h)
    exact .inr ⟨e', t, rest, hs, he⟩

/-- How a binding goes wrong: in its value, or behind it. -/
theorem Fails.binding {steps : Nat} {n a : Token} {ts : List Token} {err : ExprError}
    (h : Fails (steps + 1) (n :: a :: ts) err) (hn : n.kind = .name) (ha : a.kind = .assign) :
    expression ts = .error err ∨ ∃ value mid t after, expression ts = .ok (value, mid) ∧
      skipSemicolon mid = t :: after ∧
      (startsPhrase t.kind = false ∧ err = unexpected t ∨ Fails steps (t :: after) err) := by
  have hname : expect .name (n :: a :: ts) = .ok (n, a :: ts) := expect_eq_ok_iff.mpr ⟨rfl, hn⟩
  have hassign : expect .assign (a :: ts) = .ok (a, ts) := expect_eq_ok_iff.mpr ⟨rfl, ha⟩
  rw [Fails, statement, if_pos (by simp [startsBinding, hn, ha])] at h
  simp only [hname, hassign, ok_bind] at h
  cases hv : expression ts with
  | error e =>
    rw [hv] at h
    rcases h with h | ⟨_, _, _, h, -⟩
    · exact .inl (congrArg _ (Except.error.inj h))
    · cases h
  | ok x =>
    obtain ⟨value, mid⟩ := x
    rw [hv] at h
    simp only [ok_bind] at h
    cases hskip : skipSemicolon mid with
    | nil =>
      rw [hskip] at h
      rcases h with h | ⟨_, _, _, h, -⟩ <;> cases h
    | cons t after =>
      refine .inr ⟨value, mid, t, after, rfl, hskip, ?_⟩
      rw [hskip] at h
      cases hk : t.kind <;> simp only [hk] at h
      case rightBracket | comma | semicolon =>
        rcases h with h | ⟨_, _, _, h, -⟩
        · exact .inl ⟨rfl, (Except.error.inj h).symm⟩
        · cases h
      all_goals exact .inr (fails_of_bind h)

section Programs

variable {pre front : List Token} {n a s : Token} {e : Expr}

theorem Begun.startsBinding {symbol : Symbol} {post : List Token}
    (h : Begun symbol (pre ++ post) pre) (hne : pre ≠ [])
    (hb : startsBinding (pre ++ post) = false) (us : List Token) :
    Expr.startsBinding (pre ++ us) = false := by
  rcases pre with _ | ⟨t, _ | ⟨u, pre⟩⟩
  · exact absurd rfl hne
  · have ht : t.kind ≠ .name := by
      intro hk
      exact h.settled (by simp only [List.singleton_append] at hb ⊢; simp [startsFactor, hk, hb]) hk
    cases us <;> simp [Expr.startsBinding, ht]
  · exact hb

theorem Begun.entered {post : List Token} (h : Begun (.chain .comparison) (pre ++ post) pre)
    (hb : Expr.startsBinding (pre ++ post) = false) : Entered (pre ++ post) pre := by
  refine ⟨?_, fun hb' => by rw [hb] at hb'; cases hb'⟩
  cases pre with
  | nil => exact viableProgram_nil
  | cons t pre =>
    obtain ⟨kinds, hne, hviable⟩ := h.viable
    refine ⟨kinds, hne, fun more hmore => ?_⟩
    obtain ⟨e, he⟩ := hviable more hmore []
    rw [List.append_nil] at he
    exact ⟨e, .expression (h.startsBinding (List.cons_ne_nil t pre) hb more) he⟩

/-- Behind a whole expression a comparison can go on. -/
theorem entered_of_passed {rest : List Token} (h : Passed Reading.whole front rest)
    (hb : Expr.startsBinding (front ++ rest) = false) : Entered (front ++ rest) front := by
  refine ⟨⟨[.less, .number], List.cons_ne_nil _ _, fun more hmore => ?_⟩,
    fun hb' => by rw [hb] at hb'; cases hb'⟩
  obtain ⟨t, us, rfl, ht, hus⟩ := List.map_eq_cons_iff.mp hmore
  obtain ⟨u, vs, rfl, hu, hvs⟩ := List.map_eq_cons_iff.mp hus
  obtain rfl := List.map_eq_nil_iff.mp hvs
  obtain ⟨e, he⟩ := h.moved [t, u] (tame_of_kind (by simp [ht]) _ _)
  have hop : Level.comparison.operator? t.kind = some .less := by rw [ht]; rfl
  refine ⟨_, .expression ?_ (he.operator hop ((Derives.number hu).weaken (by decide)))⟩
  rcases front with _ | ⟨v, _ | ⟨w, front⟩⟩
  · exact absurd rfl h.ne_nil
  · simp [Expr.startsBinding, ht]
  · exact hb

theorem ViableProgram.separated (h : ViableProgram pre) (hn : n.kind = .name)
    (ha : a.kind = .assign) {rest : List Token} (hv : Passed Reading.whole front (s :: rest))
    (hs : s.kind = .semicolon) :
    ViableProgram (n :: a :: (front ++ s :: pre)) := by
  obtain ⟨kinds, hne, h⟩ := h
  refine ⟨kinds, hne, fun post hpost => ?_⟩
  obtain ⟨e, he⟩ := h post hpost
  obtain ⟨value, hvalue⟩ := hv.moved (s :: (pre ++ post)) (tame_cons s _ _)
  exact ⟨_, by simpa using Program.separated hn ha hvalue hs he⟩

theorem ViableProgram.adjacent {post : List Token} (h : Entered (pre ++ post) pre)
    (hb : Expr.startsBinding (pre ++ post) = true) (hn : n.kind = .name) (ha : a.kind = .assign)
    (hv : Passed Reading.whole front (pre ++ post)) : ViableProgram (n :: a :: (front ++ pre)) := by
  obtain ⟨⟨kinds, hne, hviable⟩, hbound⟩ := h
  refine ⟨kinds, hne, fun more hmore => ?_⟩
  have hpre : pre ≠ [] := by
    rintro rfl
    cases hbound hb []
  obtain ⟨e, he⟩ := hviable more hmore
  obtain ⟨value, hvalue⟩ := hv.moved (pre ++ more) (tame_append hpre _ _)
  exact ⟨_, by simpa using Program.adjacent hn ha hvalue (hbound hb more) he⟩

theorem ViableProgram.value (h : Viable Reading.whole pre) (hn : n.kind = .name)
    (ha : a.kind = .assign) : ViableProgram (n :: a :: pre) := by
  obtain ⟨kinds, hne, h⟩ := h
  refine ⟨kinds, hne, fun post hpost => ?_⟩
  obtain ⟨e, he⟩ := h post hpost []
  rw [List.append_nil] at he
  exact ⟨_, .last hn ha he⟩

/-- A semicolon may stand behind a value. -/
theorem ViableProgram.closed {rest : List Token} (hv : Passed Reading.whole front rest)
    (hn : n.kind = .name) (ha : a.kind = .assign) : ViableProgram (n :: a :: front) :=
  viableProgram_of_kind .semicolon fun s hs => by
    obtain ⟨value, hvalue⟩ := hv.moved [s] (tame_of_kind (by simp [hs]) _ _)
    exact ⟨_, .closed hn ha hvalue hs⟩

end Programs

theorem Fails.blames {steps : Nat} {ts : List Token} {err : ExprError} (hread : Readable ts)
    (hlt : ts.length < steps) (h : Fails steps ts err) : Blames (Entered ts) none ts err := by
  induction steps generalizing ts with
  | zero => cases hlt
  | succ steps ih =>
    cases hb : Expr.startsBinding ts with
    | false =>
      rw [Fails, statement, if_neg (by simp [hb]), expression_eq] at h
      rcases h with h | ⟨e, t, rest, h, rfl⟩
      · refine (blames_of_phrase hread h).imp ?_
        rintro pre ⟨post, rfl⟩ hpre
        exact hpre.entered hb
      · obtain ⟨front, rfl, hpassed⟩ := passed_of_phrase h
        exact .stuck (entered_of_passed hpassed hb) (t :: rest)
    | true =>
      obtain ⟨n, a, ts, rfl, hn, ha⟩ := eq_cons_cons_of_startsBinding hb
      have hread' := hread.behind ((Behind.tail a ts).cons n)
      have hunclosing : Unclosing [n, a] :=
        (unclosing_single (by simp [ha])).cons (by simp [hn])
      have hbound : ∀ pre us, Expr.startsBinding (n :: a :: pre ++ us) = true := fun _ _ => hb
      rcases h.binding hn ha with h | ⟨value, mid, t, after, hv, hskip, hfails⟩
      · rw [expression_eq] at h
        exact (blames_of_phrase hread' h).behind hunclosing fun pre _ hpre =>
          ⟨.value hpre.viable hn ha, fun _ => hbound pre⟩
      rw [expression_eq] at hv
      obtain ⟨hderives, hstops⟩ := (sound _).climb hv
      have hbehind := hderives.behind
      obtain ⟨front, rfl, hpassed⟩ := passed_of_phrase hv
      have hread'' := hread'.behind hbehind
      have hlen := hbehind.length_lt
      simp only [List.length_cons] at hlt
      obtain ⟨steps, rfl⟩ : ∃ m, steps = m + 1 := ⟨steps - 1, by omega⟩
      rcases skipSemicolon_eq_cons hskip with ⟨rfl, -⟩ | ⟨s, rfl, hs⟩
      · cases ht : startsPhrase t.kind with
        | false =>
          have herr : err = unexpected t := hfails.elim And.right fun h => h.eq_unexpected ht
          have hentered : Entered (n :: a :: (front ++ t :: after)) (n :: a :: front) :=
            ⟨.closed hpassed hn ha, fun _ => hbound front⟩
          rw [herr]
          exact .stuck hentered (t :: after)
        | true =>
          have hbinding := startsBinding_of_stops hstops ht
          have hcont := hfails.resolve_left fun h => Bool.false_ne_true (h.1.symm.trans ht)
          refine (ih hread'' (by omega) hcont).behind (hunclosing.append hpassed.unclosing) ?_
          rintro pre ⟨post, hpost⟩ hpre
          rw [← hpost] at hpre hpassed hbinding
          exact ⟨.adjacent hpre hbinding hn ha hpassed, fun _ => hbound _⟩
      · have hcont : Blames (Entered (t :: after)) none (t :: after) err := by
          rcases hfails with ⟨ht, rfl⟩ | h
          · have hentered : Entered (t :: after) [] :=
              ⟨viableProgram_nil, fun h => by
                rw [startsBinding_of_not_startsPhrase ht] at h
                cases h⟩
            exact .stuck hentered (t :: after)
          · rw [List.length_cons] at hlen
            exact ih (hread''.behind (.tail s _)) (by omega) h
        have hsemicolon : Blames (fun pre => ∃ pre', pre = s :: pre' ∧ Entered (t :: after) pre')
            none (s :: t :: after) err :=
          hcont.behind (unclosing_single (by simp [hs])) fun pre _ hpre => ⟨pre, rfl, hpre⟩
        refine hsemicolon.behind (hunclosing.append hpassed.unclosing) ?_
        rintro _ - ⟨pre, rfl, hpre⟩
        exact ⟨hpre.viable.separated hn ha hpassed hs, fun _ => hbound _⟩

theorem parse_eq_error {src : String} {ts : List Token} (hts : tokenize src = .ok ts)
    {err : ExprError} (h : parse src = .error err) :
    ts = [] ∧ err = .emptyExpression ∨ Blames (Entered ts) none ts err := by
  rw [parse, hts, ok_bind, ofTokens] at h
  split at h
  next hempty => exact .inl ⟨List.isEmpty_iff.mp hempty, (Except.error.inj h).symm⟩
  next hempty =>
    refine .inr (Fails.blames (Token.readable_scan hts) (Nat.lt_succ_self _) ?_)
    rcases bind_eq_error_iff.mp h with h | ⟨⟨e, rest⟩, hs, h⟩
    · exact .inl h
    · cases rest with
      | nil => cases h
      | cons t rest => exact .inr ⟨e, t, rest, hs, (Except.error.inj h).symm⟩

end Expr

namespace Token

/-- A text of this kind. -/
def sample : TokenKind → String
  | .plus => "+"
  | .minus => "-"
  | .star => "*"
  | .slash => "/"
  | .percent => "%"
  | .caret => "^"
  | .atLeast => ">="
  | .atMost => "<="
  | .equal => "=="
  | .unequal => "!="
  | .greater => ">"
  | .less => "<"
  | .assign => "="
  | .semicolon => ";"
  | .comma => ","
  | .leftBracket => "("
  | .rightBracket => ")"
  | .number => "0"
  | .sum => "sum"
  | .product => "product"
  | .name => "x"

theorem longestMatch_sample (kind : TokenKind) : LongestMatch kind (sample kind).toList [] := by
  rw [← longest_eq_some_iff]
  cases kind <;> decide +kernel

/-- Tokens of given kinds can stand behind any text. -/
theorem exists_laid (kinds : List TokenKind) (offset : Nat) : ∃ cs post, Laid offset cs post ∧
    post.map (·.kind) = kinds ∧ ∀ c tail, cs = c :: tail → isBlank c = true := by
  induction kinds generalizing offset with
  | nil => exact ⟨[], [], .nil, rfl, by simp⟩
  | cons kind kinds ih =>
    obtain ⟨cs, post, hlaid, hkinds, hblank⟩ :=
      ih (offset + ' '.utf8Size + byteSize (sample kind).toList)
    refine ⟨' ' :: ((sample kind).toList ++ cs), _,
      .blank rfl (.token ((longestMatch_sample kind).extend hblank) hlaid), ?_, ?_⟩
    · rw [List.map_cons, hkinds]
    · rintro c tail ⟨⟩
      rfl

end Token

namespace Expr

/-- Not all of the tokens of a text that is read. -/
def Unfinished (pre : List Token) : Prop :=
  ∃ (src : String) (post : List Token) (e : Expr), post ≠ [] ∧
    tokenize src = .ok (pre ++ post) ∧ parse src = .ok e

/-- The text stands in another at this byte. -/
def StandsAt (text : String) (offset : Nat) (src : String) : Prop :=
  ∃ before after : String, src = before ++ text ++ after ∧ before.utf8ByteSize = offset

/-- What is said of a text with these tokens when it is refused. -/
def Culprit (src : String) (ts : List Token) : ExprError → Prop
  | .unexpectedToken text offset => ∃ pre t post, ts = pre ++ t :: post ∧ t.text = text ∧
      t.offset = offset ∧ StandsAt text offset src ∧ Unfinished pre
  | .unclosedBracket offset => ∃ pre b post, ts = pre ++ b :: post ∧ b.kind = .leftBracket ∧
      b.offset = offset ∧ StandsAt "(" offset src ∧
      ∀ front, front <+: post → closing front ≤ opening front
  | .unexpectedEnd => Unfinished ts
  | .emptyExpression => ts = []
  | _ => False

/-- Tokens at the front of a text that can be completed to a program are completed in a text of
their own. -/
theorem Entered.unfinished {ts pre post : List Token} {src : String} (h : Entered ts pre)
    (hsrc : tokenize src = .ok (pre ++ post)) : Unfinished pre := by
  obtain ⟨kinds, hne, hviable⟩ := h.viable
  obtain ⟨front, back, -, hfront, -⟩ := (Token.tokenize_eq_ok_iff.mp hsrc).cut
  obtain ⟨cs, more, hmore, hkinds, hblank⟩ := Token.exists_laid kinds (0 + Token.byteSize front)
  obtain ⟨e, he⟩ := hviable more hkinds
  have hwhole : tokenize (String.ofList (front ++ cs)) = .ok (pre ++ more) := by
    rw [Token.tokenize_eq_ok_iff, String.toList_ofList]
    exact hfront.append hmore hblank
  refine ⟨_, more, e, ?_, hwhole, (parse_eq_ok_iff _ e).mpr ⟨_, hwhole, he⟩⟩
  rintro rfl
  exact hne hkinds.symm

theorem standsAt_of_mem {src : String} {ts : List Token} {t : Token}
    (hts : tokenize src = .ok ts) (ht : t ∈ ts) : StandsAt t.text t.offset src := by
  obtain ⟨before, after, hsrc, hoffset, -⟩ :=
    (Token.tokenize_eq_ok_iff.mp hts).tokenized.sliced t ht
  exact ⟨before, after, hsrc, hoffset⟩

theorem text_of_leftBracket {src : String} {ts : List Token} {b : Token}
    (hts : tokenize src = .ok ts) (hb : b ∈ ts) (hk : b.kind = .leftBracket) : b.text = "(" := by
  obtain ⟨_, _, -, -, hmatch⟩ := (Token.tokenize_eq_ok_iff.mp hts).tokenized.sliced b hb
  have hfound := hmatch.found
  rw [hk] at hfound
  exact String.toList_inj.mp (Token.mem_exactly_iff.mp hfound)

/-- A text with tokens is refused for the first token that no text which is read has behind those
before it, or for its end, or for a bracket that nothing behind it closes. -/
theorem culprit_of_parse {src : String} {ts : List Token} {err : ExprError}
    (hts : tokenize src = .ok ts) (h : parse src = .error err) : Culprit src ts err := by
  rcases parse_eq_error hts h with ⟨rfl, rfl⟩ | hblames
  · rfl
  cases hblames with
  | @stuck pre hpre post =>
    have hunfinished := hpre.unfinished hts
    cases post with
    | nil => exact (List.append_nil pre).symm ▸ hunfinished
    | cons t post =>
      have ht : t ∈ pre ++ t :: post := List.mem_append_right pre List.mem_cons_self
      exact ⟨pre, t, post, rfl, rfl, rfl, standsAt_of_mem hts ht, hunfinished⟩
  | @within b hb pre post hpost =>
    have hmem : b ∈ pre ++ b :: post := List.mem_append_right pre List.mem_cons_self
    have hstands := standsAt_of_mem hts hmem
    rw [text_of_leftBracket hts hmem hb] at hstands
    exact ⟨pre, b, post, rfl, hb, rfl, hstands, hpost⟩
  | around ho => cases ho

/-- Reading stops before a name with an equals sign behind it, where the bracket should close. -/
theorem culprit_of_lookahead : ∃ ts, tokenize "2 f(x y = 3)" = .ok ts ∧
    parse "2 f(x y = 3)" = .error (.unexpectedToken "y" 6) ∧
    Culprit "2 f(x y = 3)" ts (.unexpectedToken "y" 6) := by
  have hscan : (tokenize "2 f(x y = 3)").toOption.isSome = true := by decide +kernel
  have hread : (parse "2 f(x y = 3)").map display = .error (.unexpectedToken "y" 6) := by
    decide +kernel
  obtain ⟨ts, hts⟩ := Option.isSome_iff_exists.mp hscan
  rw [toOption_eq_some_iff] at hts
  have herr : parse "2 f(x y = 3)" = .error (.unexpectedToken "y" 6) := by
    cases hp : parse "2 f(x y = 3)" with
    | error err =>
      rw [hp] at hread
      exact congrArg _ (Except.error.inj hread)
    | ok e =>
      rw [hp] at hread
      cases hread
  exact ⟨ts, hts, herr, culprit_of_parse hts herr⟩

end Expr

end DifferentialAnalyzer
