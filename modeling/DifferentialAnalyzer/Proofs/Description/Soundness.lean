import DifferentialAnalyzer.Proofs.Description.Validity
import DifferentialAnalyzer.Proofs.FloatValue

/-! The descriptions that pass the checks, said without the checks. A shaft is sound if its end lies
straight across or straight down from its start, so far at most that its cells can be counted. -/

namespace DifferentialAnalyzer

namespace ShaftSpan

/-- How far across the end lies from the start. -/
def across (s : ShaftSpan) : Int :=
  s.last.x - s.first.x

def down (s : ShaftSpan) : Int :=
  s.last.y - s.first.y

/-- The shaft is straight, and no longer than can be counted. -/
structure Sound (s : ShaftSpan) : Prop where
  across : 0 ≤ s.across ∧ s.across ≤ 2 ^ 63 - 2
  down : 0 ≤ s.down ∧ s.down ≤ 2 ^ 63 - 2
  straight : ¬ (0 < s.across ∧ 0 < s.down)

/-- A word holds the difference and the number of cells. -/
def Counted (difference : Int) : Prop :=
  -2 ^ 63 ≤ difference ∧ difference ≤ 2 ^ 63 - 2

theorem cells?_eq_some_iff {a b n : Int} :
    cells? a b = some n ↔ n = b - a + 1 ∧ Counted (b - a) := by
  have hheld : (Word.holdsSigned (b - a) && Word.holdsSigned (b - a + 1)) = true ↔
      Counted (b - a) := by
    simp only [Word.holdsSigned, Counted, Bool.and_eq_true, decide_eq_true_eq]
    rw [Word.half]
    omega
  rw [cells?]
  by_cases hc : Counted (b - a)
  · rw [if_pos (hheld.mpr hc), Option.some.injEq, eq_comm, and_iff_left hc]
  · rw [if_neg (mt hheld.mp hc)]
    simp [hc]

theorem extent?_eq_some_iff {s : ShaftSpan} {width height : Int} :
    s.extent? = some (width, height) ↔ (width = s.across + 1 ∧ Counted s.across) ∧
      height = s.down + 1 ∧ Counted s.down := by
  simp only [extent?, Option.bind_eq_bind, Option.bind_eq_some_iff, cells?_eq_some_iff,
    Option.some.injEq, Prod.mk.injEq, across, down]
  constructor
  · rintro ⟨w, ⟨rfl, hw⟩, h, ⟨rfl, hh⟩, rfl, rfl⟩
    exact ⟨⟨rfl, hw⟩, rfl, hh⟩
  · rintro ⟨⟨rfl, hw⟩, rfl, hh⟩
    exact ⟨_, ⟨rfl, hw⟩, _, ⟨rfl, hh⟩, rfl, rfl⟩

/-- The shaft points this way: across, down, or nowhere from a single cell. -/
def Points (s : ShaftSpan) : Orientation → Prop
  | .horizontal => 0 < s.across ∧ s.down = 0
  | .vertical => s.across = 0 ∧ 0 < s.down
  | .point => s.across = 0 ∧ s.down = 0

/-- The shaft can be used where this orientation is wanted. -/
def Suits (s : ShaftSpan) : Orientation → Prop
  | .horizontal => s.down = 0
  | .vertical => s.across = 0
  | .point => True

theorem Sound.extent?_eq {s : ShaftSpan} (h : s.Sound) :
    s.extent? = some (s.across + 1, s.down + 1) := by
  obtain ⟨⟨hx, hx'⟩, ⟨hy, hy'⟩, -⟩ := h
  refine extent?_eq_some_iff.mpr ⟨⟨rfl, ?_, hx'⟩, rfl, ?_, hy'⟩ <;> omega

theorem ofExtent?_eq_some_iff {s : ShaftSpan} (hx : 0 ≤ s.across) (hy : 0 ≤ s.down)
    {o : Orientation} : Orientation.ofExtent? (s.across + 1) (s.down + 1) = some o ↔
      ¬ (0 < s.across ∧ 0 < s.down) ∧ s.Points o := by
  have hwide : 1 < s.across + 1 ↔ 0 < s.across := by omega
  have hhigh : 1 < s.down + 1 ↔ 0 < s.down := by omega
  rw [Orientation.ofExtent?]
  by_cases hw : 0 < s.across <;> by_cases hd : 0 < s.down <;>
    cases o <;> simp [hwide, hhigh, hw, hd, Points] <;> omega

/-- The checks of a shaft find out whether it is sound, and where it points. -/
theorem orientation_eq_ok_iff {s : ShaftSpan} {o : Orientation} :
    s.orientation = .ok o ↔ s.Sound ∧ s.Points o := by
  rw [orientation]
  split
  next hnone =>
    simp only [reduceCtorEq, false_iff, not_and]
    intro hs
    rw [hs.extent?_eq] at hnone
    cases hnone
  next width height hsome =>
    obtain ⟨⟨rfl, -, hx'⟩, rfl, -, hy'⟩ := extent?_eq_some_iff.mp hsome
    split
    next hlt =>
      simp only [reduceCtorEq, false_iff, not_and]
      rintro ⟨⟨hx, -⟩, ⟨hy, -⟩, -⟩
      omega
    next hle =>
      have hx : 0 ≤ s.across := by omega
      have hy : 0 ≤ s.down := by omega
      have hiff := @ofExtent?_eq_some_iff s hx hy o
      split
      next hcrooked =>
        simp only [hcrooked, reduceCtorEq, false_iff] at hiff ⊢
        exact fun ⟨hs, ho⟩ => hiff ⟨hs.straight, ho⟩
      next o' ho' =>
        rw [Except.ok.injEq]
        rw [ho', Option.some.injEq] at hiff
        exact hiff.trans ⟨fun ⟨hs, ho⟩ => ⟨⟨⟨hx, hx'⟩, ⟨hy, hy'⟩, hs⟩, ho⟩,
          fun ⟨hs, ho⟩ => ⟨hs.straight, ho⟩⟩

theorem exists_orientation_iff {s : ShaftSpan} :
    (∃ o, s.orientation = .ok o) ↔ s.Sound := by
  simp only [orientation_eq_ok_iff, exists_and_left, and_iff_left_iff_imp]
  rintro ⟨⟨hx, -⟩, ⟨hy, -⟩, hstraight⟩
  by_cases hw : 0 < s.across
  · exact ⟨.horizontal, hw, by omega⟩
  · by_cases hd : 0 < s.down
    · exact ⟨.vertical, by omega, hd⟩
    · exact ⟨.point, by omega, by omega⟩

theorem fits_iff_suits {s : ShaftSpan} {o : Orientation} (h : s.Points o) (wanted : Orientation) :
    o.fits wanted = true ↔ s.Suits wanted := by
  cases o <;> cases wanted <;> simp [Orientation.fits, Suits] <;> simp only [Points] at h <;> omega

end ShaftSpan

namespace Orientations

variable {known : Orientations} {shafts : List ShaftSpan}

theorem exists_of_iff : (∃ known : Orientations, known.Of shafts) ↔ ∀ s ∈ shafts, s.Sound := by
  induction shafts with
  | nil => simp [Of]
  | cons s shafts ih =>
    rw [List.forall_mem_cons, ← ih, ← ShaftSpan.exists_orientation_iff]
    constructor
    · rintro ⟨known, h⟩
      cases h with
      | @cons _ entry _ rest he hrest => exact ⟨⟨entry.2, he.2⟩, rest, hrest⟩
    · rintro ⟨⟨o, ho⟩, rest, hrest⟩
      exact ⟨(s.key, o) :: rest, .cons ⟨rfl, ho⟩ hrest⟩

theorem Of.lookup_isSome (h : known.Of shafts) {key : ShaftKey} :
    (known.lookup key).isSome = true ↔ ∃ s ∈ shafts, s.key = key := by
  rw [h.lookup_isSome_iff, List.mem_map]

end Orientations

/-- The shaft with this key is there and can be used where this orientation is wanted. -/
def ShaftKey.Suits (shafts : List ShaftSpan) (key : ShaftKey) (wanted : Orientation) : Prop :=
  ∃ s ∈ shafts, s.key = key ∧ s.Suits wanted

/-- The parameters of a part can be used. -/
def Part.Sound (shafts : List ShaftSpan) : Part → Prop
  | .integrator _ _ _ _ initial => initial.isFinite = true
  | .differential a sum b => a.isSome = true ∧ sum.isSome = true ∨
    a.isSome = true ∧ b.isSome = true ∨ sum.isSome = true ∧ b.isSome = true
  | .multiplier _ _ (.number factor) => factor.isFinite = true
  | .multiplier _ _ (.formula _) => True
  | .functionTable _ _ formula .. => ∃ c ∈ formula.toList, isBlankChar c = false
  | .motor _ _ rotation => ∀ r, rotation = some r → r.isFinite = true
  | .outputTable _ output1 output2 initial1 initial2 =>
    (output1.isSome = true ∨ output2.isSome = true) ∧
      initial1.isFinite = true ∧ initial2.isFinite = true
  | .crossConnect horizontal vertical _ | .gear horizontal vertical =>
    horizontal.Suits shafts .horizontal ∧ vertical.Suits shafts .vertical
  | .gearPair _ _ inputRatio outputRatio =>
    (inputRatio.isFinite = true ∧ Binary64.value inputRatio ≠ 0) ∧
      outputRatio.isFinite = true ∧ Binary64.value outputRatio ≠ 0
  | .dial _ | .label _ => True

namespace Component

variable {known : Orientations} {shafts : List ShaftSpan} {label field : String}

theorem requireOrientation_eq_ok_iff (h : known.Of shafts) (hnodup : (shafts.map (·.key)).Nodup)
    {key : ShaftKey} (hkey : (known.lookup key).isSome = true) {wanted : Orientation} :
    requireOrientation label known field key wanted = .ok () ↔ key.Suits shafts wanted := by
  obtain ⟨s, hs, rfl⟩ := h.lookup_isSome.mp hkey
  obtain ⟨o, hlookup, ho⟩ := h.lookup_eq hnodup hs
  have hfits := ShaftSpan.fits_iff_suits (ShaftSpan.orientation_eq_ok_iff.mp ho).2 wanted
  have honly : ShaftKey.Suits shafts s.key wanted ↔ s.Suits wanted := by
    refine ⟨fun ⟨t, ht, he, hsuits⟩ => ?_, fun hsuits => ⟨s, hs, rfl, hsuits⟩⟩
    rwa [← List.inj_on_of_nodup_map hnodup ht hs he]
  rw [requireOrientation, hlookup, honly, ← hfits]
  split <;> simp_all

theorem requireRatio_eq_ok_iff_value {x : Float} : requireRatio label field x = .ok () ↔
    x.isFinite = true ∧ Binary64.value x ≠ 0 := by
  rw [requireRatio_eq_ok_iff]
  refine and_congr_right fun hx => ?_
  have hzero : Binary64.value 0.0 = 0 := by decide +kernel
  rw [← Bool.not_eq_true, Binary64.beq_iff_value_eq hx (by decide +kernel), hzero]

theorem checkCrossing_eq_ok_iff (h : known.Of shafts) (hnodup : (shafts.map (·.key)).Nodup)
    {horizontal vertical : ShaftKey}
    (hrefs : ∀ ref ∈ [("horizontal", horizontal), ("vertical", vertical)],
      (known.lookup ref.2).isSome = true) :
    (do
      requireOrientation label known "horizontal" horizontal .horizontal
      requireOrientation label known "vertical" vertical .vertical) = .ok () ↔
      horizontal.Suits shafts .horizontal ∧ vertical.Suits shafts .vertical := by
  simp only [List.forall_mem_cons] at hrefs
  obtain ⟨hh, hv, -⟩ := hrefs
  rw [check_bind_eq_ok_iff, requireOrientation_eq_ok_iff h hnodup hh,
    requireOrientation_eq_ok_iff h hnodup hv]

theorem checkPart_eq_ok_iff (h : known.Of shafts) (hnodup : (shafts.map (·.key)).Nodup)
    {p : Part} (hrefs : ∀ ref ∈ p.shaftRefs, (known.lookup ref.2).isSome = true) :
    checkPart label known p = .ok () ↔ p.Sound shafts := by
  cases p with
  | integrator input integrand output reversed initial => exact requireFinite_eq_ok_iff
  | differential a sum b =>
    cases a <;> cases sum <;> cases b <;> simp [checkPart, Part.Sound]
  | multiplier input output factor =>
    cases factor with
    | number x => exact requireFinite_eq_ok_iff
    | formula source => simp [checkPart, Part.Sound]
  | functionTable input output formula xMin xMax yMin yMax =>
    have hblank : isBlankText formula = false ↔ ∃ c ∈ formula.toList, isBlankChar c = false := by
      rw [isBlankText, List.all_eq_false]
      simp only [Bool.not_eq_true]
    rw [checkPart, Part.Sound, ← hblank]
    cases isBlankText formula <;> simp
  | motor output reversed rotation =>
    cases rotation with
    | none => simp [checkPart, Part.Sound]
    | some r => simpa [checkPart, Part.Sound] using requireFinite_eq_ok_iff
  | outputTable input output1 output2 initial1 initial2 =>
    have hfinite : (do
        requireFinite label "initialY1" initial1
        requireFinite label "initialY2" initial2) = .ok () ↔
          initial1.isFinite = true ∧ initial2.isFinite = true := by
      rw [check_bind_eq_ok_iff, requireFinite_eq_ok_iff, requireFinite_eq_ok_iff]
    cases output1 <;> cases output2 <;> simp [checkPart, Part.Sound, hfinite]
  | crossConnect horizontal vertical reversed => exact checkCrossing_eq_ok_iff h hnodup hrefs
  | gear horizontal vertical => exact checkCrossing_eq_ok_iff h hnodup hrefs
  | gearPair shaft1 shaft2 inputRatio outputRatio =>
    rw [checkPart, check_bind_eq_ok_iff, requireRatio_eq_ok_iff_value,
      requireRatio_eq_ok_iff_value, Part.Sound]
  | dial input => simp [checkPart, Part.Sound]
  | label note => simp [checkPart, Part.Sound]

end Component

theorem countP_eq_one_iff {α : Type} {p : α → Bool} {xs : List α} :
    xs.countP p = 1 ↔ ∃! i : Nat, ∃ x, xs[i]? = some x ∧ p x = true := by
  induction xs with
  | nil => simp
  | cons x xs ih =>
    by_cases hx : p x = true
    · rw [List.countP_cons_of_pos hx, Nat.add_eq_right, List.countP_eq_zero]
      constructor
      · intro h
        refine ⟨0, ⟨x, rfl, hx⟩, ?_⟩
        rintro (_ | i) ⟨y, hy, hp⟩
        · rfl
        · exact absurd hp (h y (List.mem_of_getElem? hy))
      · rintro ⟨i, -, hi⟩ y hy hp
        obtain ⟨j, hj⟩ := List.mem_iff_getElem?.mp hy
        have hzero := hi 0 ⟨x, rfl, hx⟩
        have hsucc := hi (j + 1) ⟨y, hj, hp⟩
        omega
    · rw [List.countP_cons_of_neg hx, ih]
      constructor
      · rintro ⟨i, hi, honly⟩
        refine ⟨i + 1, hi, ?_⟩
        rintro (_ | j) ⟨y, hy, hp⟩
        · obtain rfl : x = y := Option.some.inj hy
          exact absurd hp hx
        · exact congrArg Nat.succ (honly j ⟨y, hy, hp⟩)
      · rintro ⟨_ | i, ⟨y, hy, hp⟩, honly⟩
        · obtain rfl : x = y := Option.some.inj hy
          exact absurd hp hx
        · exact ⟨i, ⟨y, hy, hp⟩, fun j hj => Nat.succ.inj (honly (j + 1) hj)⟩

namespace Description

/-- A description from which a machine can be made, as far as this can be seen without looking into
formulas. -/
structure Sound (d : Description) : Prop where
  spans : ∀ s ∈ d.shafts, s.Sound
  keys : (d.shafts.map (·.key)).Nodup
  ids : (d.components.filterMap (·.id)).Nodup
  motor : ∃! i : Nat, ∃ c, d.components[i]? = some c ∧ c.part.isMotor = true
  refs : ∀ c ∈ d.components, ∀ ref ∈ c.part.shaftRefs, ∃ s ∈ d.shafts, s.key = ref.2
  parts : ∀ c ∈ d.components, c.part.Sound d.shafts

theorem check_components_iff {d : Description} {known : Orientations} (h : known.Of d.shafts)
    (hnodup : (d.shafts.map (·.key)).Nodup) : (∀ c ∈ d.components, c.check known = .ok ()) ↔
      (∀ c ∈ d.components, ∀ ref ∈ c.part.shaftRefs, ∃ s ∈ d.shafts, s.key = ref.2) ∧
      ∀ c ∈ d.components, c.part.Sound d.shafts := by
  rw [← forall₂_and]
  refine forall₂_congr fun c _ => ?_
  rw [Component.check_eq_ok_iff]
  simp only [h.lookup_isSome]
  exact and_congr_right fun hrefs =>
    Component.checkPart_eq_ok_iff h hnodup fun ref hr => h.lookup_isSome.mpr (hrefs ref hr)

/-- The checks accept exactly the sound descriptions, and what they compute of a shaft is exact. -/
theorem validates_iff_sound : (∀ d : Description, d.validate = .ok () ↔ d.Sound) ∧
    ∀ (s : ShaftSpan) width height, s.extent? = some (width, height) ↔
      (width = s.across + 1 ∧ ShaftSpan.Counted s.across) ∧
        height = s.down + 1 ∧ ShaftSpan.Counted s.down := by
  refine ⟨fun d => ?_, fun s width height => ShaftSpan.extent?_eq_some_iff⟩
  rw [validate_eq_ok_iff]
  constructor
  · rintro ⟨known, hknown, hchecks, hids, hmotor⟩
    obtain ⟨hof, hkeys⟩ := Orientations.ofShafts_eq_ok_iff.mp hknown
    obtain ⟨hrefs, hparts⟩ := (check_components_iff hof hkeys).mp hchecks
    exact ⟨Orientations.exists_of_iff.mp ⟨known, hof⟩, hkeys, hids, countP_eq_one_iff.mp hmotor,
      hrefs, hparts⟩
  · intro h
    obtain ⟨known, hof⟩ := Orientations.exists_of_iff.mpr h.spans
    exact ⟨known, Orientations.ofShafts_eq_ok_iff.mpr ⟨hof, h.keys⟩,
      (check_components_iff hof h.keys).mpr ⟨h.refs, h.parts⟩, h.ids, countP_eq_one_iff.mpr h.motor⟩

end Description

end DifferentialAnalyzer
