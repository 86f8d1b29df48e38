import DifferentialAnalyzer.Description.Validate
import DifferentialAnalyzer.Proofs.Fallible
import Mathlib.Data.List.Nodup

/-! Which descriptions pass the checks. Shafts lie straight and have ids of their own, every id that
a component names is one of theirs, and there is one motor. -/

namespace DifferentialAnalyzer

namespace Orientations

variable {known : Orientations} {shafts : List ShaftSpan}

theorem lookup_eq_none_iff {key : ShaftKey} :
    known.lookup key = none ↔ key ∉ known.map (·.1) := by
  induction known with
  | nil => simp
  | cons entry known ih =>
    rw [List.lookup_cons, List.map_cons, List.mem_cons, not_or]
    by_cases hk : key = entry.1
    · simp [hk]
    · have hne : (key == entry.1) = false := by simpa using hk
      simp [hne, hk, ih]

/-- The orientations of some shafts by their ids. -/
def Of (known : Orientations) (shafts : List ShaftSpan) : Prop :=
  List.Forall₂ (fun (s : ShaftSpan) entry => entry.1 = s.key ∧ s.orientation = .ok entry.2)
    shafts known

theorem Of.keys (h : known.Of shafts) : known.map (·.1) = shafts.map (·.key) := by
  symm
  rw [← List.forall₂_eq_eq_eq, List.forall₂_map_left_iff, List.forall₂_map_right_iff]
  exact h.imp fun _ _ he => he.1.symm

theorem extend_eq_ok_iff {before known : Orientations} :
    extend before shafts = .ok known ↔
      (∃ added : Orientations, known = before ++ added ∧ added.Of shafts) ∧
      (shafts.map (·.key)).Nodup ∧ ∀ s ∈ shafts, s.key ∉ before.map (·.1) := by
  induction shafts generalizing before with
  | nil => simp [extend, Of, eq_comm]
  | cons s rest ih =>
    rw [extend, bind_eq_ok_iff]
    simp only [List.map_cons, List.nodup_cons, List.forall_mem_cons]
    constructor
    · rintro ⟨o, ho, h⟩
      split at h
      · cases h
      next hs =>
        rw [Bool.not_eq_true, Option.isSome_eq_false_iff, Option.isNone_iff_eq_none,
          lookup_eq_none_iff] at hs
        obtain ⟨⟨added, rfl, hadded⟩, hnodup, hnew⟩ := ih.mp h
        simp only [List.map_append, List.map_cons, List.map_nil, List.mem_append,
          List.mem_singleton, not_or] at hnew
        refine ⟨⟨(s.key, o) :: added, by simp, .cons ⟨rfl, ho⟩ hadded⟩, ⟨?_, hnodup⟩, hs,
          fun t ht => (hnew t ht).1⟩
        rintro hmem
        obtain ⟨t, ht, he⟩ := List.mem_map.mp hmem
        exact (hnew t ht).2 he
    · rintro ⟨⟨_, rfl, hadded⟩, ⟨hs, hnodup⟩, hfirst, hrest⟩
      cases hadded with
      | @cons _ entry _ added he hadded =>
        obtain ⟨key, o⟩ := entry
        obtain ⟨rfl, ho⟩ := he
        refine ⟨o, ho, ?_⟩
        rw [if_neg (by simp [lookup_eq_none_iff.mpr hfirst])]
        refine ih.mpr ⟨⟨added, by simp, hadded⟩, hnodup, fun t ht => ?_⟩
        simp only [List.map_append, List.map_cons, List.map_nil, List.mem_append,
          List.mem_singleton, not_or]
        exact ⟨hrest t ht, fun he => hs (he ▸ List.mem_map_of_mem ht)⟩

theorem ofShafts_eq_ok_iff :
    ofShafts shafts = .ok known ↔ known.Of shafts ∧ (shafts.map (·.key)).Nodup := by
  rw [ofShafts, extend_eq_ok_iff]
  simp

theorem Of.lookup_isSome_iff (h : known.Of shafts) {key : ShaftKey} :
    (known.lookup key).isSome = true ↔ key ∈ shafts.map (·.key) := by
  rw [← h.keys, ← not_iff_not, ← lookup_eq_none_iff, Bool.not_eq_true, Option.isSome_eq_false_iff,
    Option.isNone_iff_eq_none]

/-- Of shafts with ids of their own each is found under its id. -/
theorem Of.lookup_eq (h : known.Of shafts) (hnodup : (shafts.map (·.key)).Nodup) {s : ShaftSpan}
    (hs : s ∈ shafts) : ∃ o, known.lookup s.key = some o ∧ s.orientation = .ok o := by
  induction h with
  | nil => cases hs
  | @cons t entry rest known he hrest ih =>
    obtain ⟨key, o⟩ := entry
    obtain ⟨rfl, ho⟩ := he
    obtain ⟨ht, hnodup⟩ := List.nodup_cons.mp hnodup
    rcases List.mem_cons.mp hs with rfl | hs
    · exact ⟨o, by simp, ho⟩
    · obtain ⟨o', hlookup, ho'⟩ := ih hnodup hs
      have hne : (s.key == t.key) = false := by
        simpa using fun heq : s.key = t.key => ht (List.mem_map.mpr ⟨s, hs, heq⟩)
      exact ⟨o', by rw [List.lookup_cons, hne, hlookup], ho'⟩

end Orientations

namespace Component

theorem checkRefs_eq_ok_iff {label : String} {known : Orientations}
    {refs : List (String × ShaftKey)} :
    checkRefs label known refs = .ok () ↔
      ∀ ref ∈ refs, (known.lookup ref.2).isSome = true := by
  induction refs with
  | nil => simp [checkRefs]
  | cons ref refs ih =>
    rw [checkRefs, List.forall_mem_cons]
    split
    next h => simp [h, ih]
    next h => simp [h]

theorem requireFinite_eq_ok_iff {label field : String} {x : Float} :
    requireFinite label field x = .ok () ↔ x.isFinite = true := by
  rw [requireFinite]
  split <;> simp_all

theorem requireRatio_eq_ok_iff {label field : String} {x : Float} :
    requireRatio label field x = .ok () ↔ x.isFinite = true ∧ (x == 0.0) = false := by
  rw [requireRatio, check_bind_eq_ok_iff, requireFinite_eq_ok_iff]
  refine and_congr_right fun _ => ?_
  split <;> simp_all

theorem check_eq_ok_iff {known : Orientations} {c : Component} :
    c.check known = .ok () ↔
      (∀ ref ∈ c.part.shaftRefs, (known.lookup ref.2).isSome = true) ∧
      checkPart c.label known c.part = .ok () := by
  rw [check, check_bind_eq_ok_iff, checkRefs_eq_ok_iff]

theorem checkAll_eq_ok_iff {known : Orientations} {ids : List Int} {cs : List Component} :
    checkAll known ids cs = .ok () ↔ (∀ c ∈ cs, c.check known = .ok ()) ∧
      (cs.filterMap (·.id)).Nodup ∧ ∀ id ∈ cs.filterMap (·.id), id ∉ ids := by
  induction cs generalizing ids with
  | nil => simp [checkAll]
  | cons c cs ih =>
    rw [checkAll, List.forall_mem_cons]
    cases hid : c.id with
    | none =>
      simp only [check_bind_eq_ok_iff, ih, List.filterMap_cons, hid, and_assoc]
    | some id =>
      simp only [List.filterMap_cons, hid, List.nodup_cons, List.forall_mem_cons]
      by_cases hmem : id ∈ ids
      · simp [hmem]
      · rw [if_neg (by simpa using hmem), check_bind_eq_ok_iff]
        simp only [ih, List.mem_cons, not_or, hmem, not_false_eq_true, true_and]
        constructor
        · rintro ⟨hc, hcs, hnodup, hnew⟩
          exact ⟨⟨hc, hcs⟩, ⟨fun h => (hnew id h).1 rfl, hnodup⟩, fun x hx => (hnew x hx).2⟩
        · rintro ⟨⟨hc, hcs⟩, ⟨hid, hnodup⟩, hold⟩
          exact ⟨hc, hcs, hnodup, fun x hx => ⟨fun he => hid (he ▸ hx), hold x hx⟩⟩

end Component

namespace Description

/-- A description passes if its shafts have orientations, its components pass by themselves and
have ids of their own, and one of them is a motor. -/
theorem validate_eq_ok_iff {d : Description} :
    d.validate = .ok () ↔ ∃ known, d.orientations = .ok known ∧
      (∀ c ∈ d.components, c.check known = .ok ()) ∧
      (d.components.filterMap (·.id)).Nodup ∧ d.motorCount = 1 := by
  rw [validate, bind_eq_ok_iff]
  refine exists_congr fun known => and_congr_right fun _ => ?_
  rw [check_bind_eq_ok_iff]
  simp only [Component.checkAll_eq_ok_iff, and_assoc, List.not_mem_nil, not_false_eq_true,
    implies_true, true_and]
  refine and_congr_right fun _ => and_congr_right fun _ => ?_
  split
  next h => simp [h]
  next h => simp [h]

/-- The shaft at this place has this key. -/
def Locates (shafts : List ShaftSpan) (key : ShaftKey) (id : ShaftId) : Prop :=
  (shafts[id.index]?).map (·.key) = some key

theorem exists_locates_iff {shafts : List ShaftSpan} {key : ShaftKey} :
    (∃ id, Locates shafts key id) ↔ key ∈ shafts.map (·.key) := by
  simp only [Locates, ← List.getElem?_map, List.mem_iff_getElem?]
  exact ⟨fun ⟨id, h⟩ => ⟨id.index, h⟩, fun ⟨i, h⟩ => ⟨⟨i⟩, h⟩⟩

theorem Locates.lt {shafts : List ShaftSpan} {key : ShaftKey} {id : ShaftId}
    (h : Locates shafts key id) : id.index < shafts.length := by
  obtain ⟨s, hs, -⟩ := Option.map_eq_some_iff.mp h
  exact (List.getElem?_eq_some_iff.mp hs).1

theorem locates_concat_iff {shafts : List ShaftSpan} {s : ShaftSpan} {key : ShaftKey}
    {id : ShaftId} : Locates (shafts ++ [s]) key id ↔
      Locates shafts key id ∨ key = s.key ∧ id = ⟨shafts.length⟩ := by
  obtain ⟨i⟩ := id
  simp only [Locates, List.getElem?_append, Id.mk.injEq]
  split
  next hi => simp [Nat.ne_of_lt hi]
  next hi =>
    rw [List.getElem?_singleton, List.getElem?_eq_none (Nat.le_of_not_lt hi)]
    split
    next h0 => simp [eq_comm, show i = shafts.length by omega]
    next h0 => simp [show i ≠ shafts.length by omega]

end Description

/-- Every id that the component names is that of a shaft, and an output table has something to
draw. -/
structure Part.Described (spans : List ShaftSpan) (p : Part) : Prop where
  refs : ∀ field key, (field, some key) ∈ p.shaftFields →
    ∃ id, Description.Locates spans key id
  output : ∀ input initial1 initial2, p ≠ .outputTable input none none initial1 initial2

theorem Description.described {d : Description} (h : d.validate = .ok ()) {c : Component}
    (hc : c ∈ d.components) : c.part.Described d.shafts := by
  obtain ⟨known, hknown, hchecks, -, -⟩ := validate_eq_ok_iff.mp h
  obtain ⟨hof, -⟩ := Orientations.ofShafts_eq_ok_iff.mp hknown
  obtain ⟨hrefs, hpart⟩ := Component.check_eq_ok_iff.mp (hchecks c hc)
  refine ⟨fun field key hfield => ?_, fun input initial1 initial2 he => ?_⟩
  · rw [exists_locates_iff, ← hof.lookup_isSome_iff]
    exact hrefs (field, key) (List.mem_filterMap.mpr ⟨(field, some key), hfield, rfl⟩)
  · simp [he, Component.checkPart] at hpart

end DifferentialAnalyzer
