import DifferentialAnalyzer.Topology.Keys
import Mathlib.Data.Set.Card

/-! The keys of shafts and the shafts of keys. A key stays with the shaft that it was first given
to, and a shaft keeps only the last key it was given, so that the two can disagree on a shaft that
is recorded more than once. -/

namespace DifferentialAnalyzer

namespace ShaftKeys

section Answers

variable {k : ShaftKeys} {key : Int}

theorem get_eq_ok_iff {id : ShaftId} : k.get key = .ok id ↔ k.byKey.lookup key = some id := by
  unfold get
  cases k.byKey.lookup key <;> simp

theorem contains_iff : k.contains key = true ↔ ∃ shaft, k.get key = .ok shaft := by
  simp only [contains, Option.isSome_iff_exists, get_eq_ok_iff]

/-- A key that is new can be added, and no other one is looked up differently then. -/
theorem exists_insert (h : ∀ id, k.get key ≠ .ok id) (id : ShaftId) :
    ∃ k', k.insert key id = .ok k' ∧ ∀ key' id', k'.get key' = .ok id' ↔
      k.get key' = .ok id' ∨ key' = key ∧ id' = id := by
  have hnone : k.byKey.lookup key = none :=
    Option.eq_none_iff_forall_ne_some.mpr fun id' hid => h id' (get_eq_ok_iff.mpr hid)
  refine ⟨_, if_neg (by simp [contains, hnone]), fun key' id' => ?_⟩
  rw [get_eq_ok_iff, get_eq_ok_iff, List.lookup_cons]
  by_cases hk : key' = key
  · simp [hk, hnone, eq_comm]
  · have hne : (key' == key) = false := by simpa using hk
    simp [hne, hk]

theorem insert_eq_ok_iff {shaft : ShaftId} {k' : ShaftKeys} : k.insert key shaft = .ok k' ↔
    k.contains key = false ∧
      k' = ⟨(key, shaft) :: k.byKey, record k.byShaft shaft (some key)⟩ := by
  unfold insert
  cases k.contains key <;> simp [eq_comm]

theorem insert_eq_error_iff {shaft : ShaftId} {error : TopologyError} :
    k.insert key shaft = .error error ↔ k.contains key = true ∧ error = .duplicateKey key := by
  unfold insert
  cases k.contains key <;> simp [eq_comm]

/-- Wherever the row had to grow, no shaft has a key. -/
theorem join_getElem?_record (row : Array (Option Int)) (shaft s : ShaftId) (key? : Option Int) :
    (record row shaft key?)[s.index]?.join = if s = shaft then key? else row[s.index]?.join := by
  rw [record, Array.getElem?_set]
  by_cases hs : s = shaft
  · rw [if_pos (congrArg Id.index hs).symm, if_pos hs]
    rfl
  · have hne : ¬ shaft.index = s.index := fun h => hs (congrArg Id.mk h.symm)
    rw [if_neg hne, if_neg hs, Array.getElem?_append]
    split
    · rfl
    next hlt =>
      rw [Array.getElem?_replicate, Array.getElem?_eq_none (Nat.not_lt.mp hlt)]
      split <;> rfl

end Answers

/-- A key leads to a shaft exactly when the shaft has that key. -/
def TwoWay (k : ShaftKeys) : Prop :=
  ∀ key shaft, k.get key = .ok shaft ↔ k.keyOf? shaft = some key

/-- A shaft that is to be recorded, under a key or without one. -/
structure Entry where
  shaft : ShaftId
  key? : Option Int
  deriving DecidableEq, Repr

/-- An entry under a key that is already there is refused, and nothing is recorded then. -/
def enter (k : ShaftKeys) (e : Entry) : ShaftKeys :=
  match e.key? with
  | some key => (k.insert key e.shaft).toOption.getD k
  | none => k.insertAnonymous e.shaft

def ofEntries (es : List Entry) : ShaftKeys :=
  es.foldl enter empty

theorem enter_of_ok {k k' : ShaftKeys} {key : Int} {shaft : ShaftId}
    (h : k.insert key shaft = .ok k') : k.enter ⟨shaft, some key⟩ = k' := by
  simp [enter, h, Except.toOption]

theorem enter_of_error {k : ShaftKeys} {key : Int} {shaft : ShaftId} {error : TopologyError}
    (h : k.insert key shaft = .error error) : k.enter ⟨shaft, some key⟩ = k := by
  simp [enter, h, Except.toOption]

namespace Entry

/-- The entry has a key that an earlier one has. -/
def Refused (done : List Entry) (e : Entry) : Prop :=
  e.key?.isSome ∧ e.key? ∈ done.map (·.key?)

instance (done : List Entry) (e : Entry) : Decidable (e.Refused done) :=
  inferInstanceAs (Decidable (_ ∧ _))

/-- The entries that are not refused, the latest first. -/
def accepted (es : List Entry) : List Entry :=
  es.foldl (fun done e => if e.Refused done then done else e :: done) []

variable {es : List Entry} {e : Entry}

theorem accepted_concat : accepted (es ++ [e]) =
    if e.Refused (accepted es) then accepted es else e :: accepted es := by
  rw [accepted, List.foldl_append]
  rfl

theorem mem_keys_iff {key : Int} :
    key ∈ es.filterMap (·.key?) ↔ ∃ shaft, ⟨shaft, some key⟩ ∈ es := by
  rw [List.mem_filterMap]
  constructor
  · rintro ⟨⟨shaft, -⟩, he, rfl⟩
    exact ⟨shaft, he⟩
  · rintro ⟨shaft, he⟩
    exact ⟨_, he, rfl⟩

theorem refused_some_iff {shaft : ShaftId} {key : Int} :
    Refused es ⟨shaft, some key⟩ ↔ ∃ id, ⟨id, some key⟩ ∈ es := by
  rw [← mem_keys_iff]
  simp [Refused]

theorem not_refused_none {shaft : ShaftId} : ¬ Refused es ⟨shaft, none⟩ := by
  simp [Refused]

/-- No shaft with a key is recorded again, if and only if all have their keys from their latest
entries. -/
theorem pairwise_iff_find?_eq (hkeys : (es.filterMap (·.key?)).Nodup) :
    es.Pairwise (fun later e => e.key?.isSome → later.shaft ≠ e.shaft) ↔
      ∀ e ∈ es, e.key?.isSome → es.find? (·.shaft = e.shaft) = some e := by
  induction es with
  | nil => simp
  | cons later es ih =>
    have htail : (es.filterMap (·.key?)).Nodup :=
      hkeys.sublist ((List.sublist_cons_self later es).filterMap _)
    have hne : ∀ e ∈ es, e.key?.isSome → later ≠ e := by
      rintro e he hkey rfl
      obtain ⟨key, hkey⟩ := Option.isSome_iff_exists.mp hkey
      rw [List.filterMap_cons_some hkey, List.nodup_cons] at hkeys
      exact hkeys.1 (List.mem_filterMap.mpr ⟨later, he, hkey⟩)
    rw [List.pairwise_cons, List.forall_mem_cons, ih htail]
    constructor
    · rintro ⟨hlater, hall⟩
      refine ⟨fun _ => by simp, fun e he hkey => ?_⟩
      rw [List.find?_cons_of_neg (by simpa using hlater e he hkey)]
      exact hall e he hkey
    · rintro ⟨-, hall⟩
      have hlater : ∀ e ∈ es, e.key?.isSome → later.shaft ≠ e.shaft := by
        intro e he hkey heq
        have hfind := hall e he hkey
        rw [List.find?_cons_of_pos (by simpa using heq)] at hfind
        exact hne e he hkey (Option.some.inj hfind)
      refine ⟨hlater, fun e he hkey => ?_⟩
      have hfind := hall e he hkey
      rwa [List.find?_cons_of_neg (by simpa using hlater e he hkey)] at hfind

end Entry

open Entry (accepted)

/-- The keys after these entries, the latest first, of which none was refused. -/
structure Holds (k : ShaftKeys) (done : List Entry) : Prop where
  get_iff : ∀ key shaft, k.get key = .ok shaft ↔ ⟨shaft, some key⟩ ∈ done
  keyOf?_eq : ∀ shaft, k.keyOf? shaft = (done.find? (·.shaft = shaft)).bind (·.key?)
  keys : (done.filterMap (·.key?)).Nodup
  size : k.size = (done.filterMap (·.key?)).length

section Holds

variable {k : ShaftKeys} {done : List Entry}

theorem holds_empty : empty.Holds [] where
  get_iff key shaft := by simp [empty, get]
  keyOf?_eq shaft := by simp [empty, keyOf?]
  keys := List.nodup_nil
  size := rfl

theorem keyOf?_record (h : ∀ shaft, k.keyOf? shaft = (done.find? (·.shaft = shaft)).bind (·.key?))
    (byKey : List (Int × ShaftId)) (e : Entry) (shaft : ShaftId) :
    (ShaftKeys.mk byKey (record k.byShaft e.shaft e.key?)).keyOf? shaft =
      ((e :: done).find? (·.shaft = shaft)).bind (·.key?) := by
  rw [keyOf?, join_getElem?_record]
  by_cases hs : shaft = e.shaft
  · rw [if_pos hs, List.find?_cons_of_pos (by simpa using hs.symm)]
    rfl
  · rw [if_neg hs, List.find?_cons_of_neg (by simpa using Ne.symm hs)]
    exact h shaft

theorem Holds.contains_iff (h : k.Holds done) {key : Int} :
    k.contains key = true ↔ ∃ shaft, ⟨shaft, some key⟩ ∈ done := by
  simp only [ShaftKeys.contains_iff, h.get_iff]

theorem Holds.insertAnonymous (h : k.Holds done) (shaft : ShaftId) :
    (k.insertAnonymous shaft).Holds (⟨shaft, none⟩ :: done) where
  get_iff key s := by
    rw [List.mem_cons, ← h.get_iff]
    simp [get, ShaftKeys.insertAnonymous]
  keyOf?_eq := keyOf?_record h.keyOf?_eq k.byKey ⟨shaft, none⟩
  keys := h.keys
  size := h.size

theorem Holds.insert (h : k.Holds done) {key : Int} (hnew : ∀ id, ⟨id, some key⟩ ∉ done)
    (shaft : ShaftId) :
    ∃ k', k.insert key shaft = .ok k' ∧ k'.Holds (⟨shaft, some key⟩ :: done) := by
  obtain ⟨k', hinsert, hget⟩ := exists_insert (fun id hid => hnew id ((h.get_iff _ _).mp hid)) shaft
  obtain ⟨-, rfl⟩ := insert_eq_ok_iff.mp hinsert
  refine ⟨_, hinsert, fun key' s => ?_, keyOf?_record h.keyOf?_eq _ ⟨shaft, some key⟩, ?_, ?_⟩
  · rw [hget, h.get_iff, List.mem_cons, Entry.mk.injEq, Option.some.injEq, or_comm, and_comm]
  · exact List.nodup_cons.mpr ⟨fun hmem => not_exists.mpr hnew (Entry.mem_keys_iff.mp hmem), h.keys⟩
  · exact congrArg (· + 1) h.size

theorem Holds.enter (h : k.Holds done) (e : Entry) :
    (k.enter e).Holds (if e.Refused done then done else e :: done) := by
  obtain ⟨shaft, _ | key⟩ := e
  · rw [if_neg Entry.not_refused_none]
    exact h.insertAnonymous shaft
  by_cases hold : ∃ id, ⟨id, some key⟩ ∈ done
  · rw [if_pos (Entry.refused_some_iff.mpr hold),
      enter_of_error (insert_eq_error_iff.mpr ⟨h.contains_iff.mpr hold, rfl⟩)]
    exact h
  · obtain ⟨k', hinsert, hholds⟩ := h.insert (not_exists.mp hold) shaft
    rw [if_neg (mt Entry.refused_some_iff.mp hold), enter_of_ok hinsert]
    exact hholds

theorem holds_ofEntries (es : List Entry) : (ofEntries es).Holds (accepted es) := by
  induction es using List.reverseRecOn with
  | nil => exact holds_empty
  | append_singleton es e ih =>
    rw [Entry.accepted_concat, ofEntries, List.foldl_append]
    exact ih.enter e

theorem Holds.get_eq_ok (h : k.Holds done) {key : Int} {shaft : ShaftId}
    (hkey : k.keyOf? shaft = some key) : k.get key = .ok shaft := by
  rw [h.keyOf?_eq] at hkey
  obtain ⟨⟨id, key?⟩, hfind, rfl⟩ := Option.bind_eq_some_iff.mp hkey
  obtain rfl : id = shaft := by simpa using List.find?_some hfind
  exact (h.get_iff _ _).mpr (List.mem_of_find?_eq_some hfind)

theorem Holds.twoWay_iff (h : k.Holds done) :
    k.TwoWay ↔ done.Pairwise fun later e => e.key?.isSome → later.shaft ≠ e.shaft := by
  rw [Entry.pairwise_iff_find?_eq h.keys]
  constructor
  · rintro htwo ⟨shaft, _ | key⟩ he hkey
    · cases hkey
    · have hkeyOf := (htwo key shaft).mp ((h.get_iff _ _).mpr he)
      rw [h.keyOf?_eq] at hkeyOf
      obtain ⟨⟨id, key?⟩, hfind, rfl⟩ := Option.bind_eq_some_iff.mp hkeyOf
      obtain rfl : id = shaft := by simpa using List.find?_some hfind
      exact hfind
  · intro hall key shaft
    refine ⟨fun hget => ?_, h.get_eq_ok⟩
    rw [h.keyOf?_eq, hall ⟨shaft, some key⟩ ((h.get_iff _ _).mp hget) rfl]
    rfl

theorem Holds.encard_eq (h : k.Holds done) :
    {key | ∃ shaft, k.get key = .ok shaft}.encard = k.size := by
  have hset : {key | ∃ shaft, k.get key = .ok shaft} =
      ((done.filterMap (·.key?)).toFinset : Set Int) := by
    ext key
    simp only [Set.mem_ofPred_eq, h.get_iff, List.coe_toFinset, Entry.mem_keys_iff]
  rw [hset, Set.encard_coe_eq_coe_finsetCard, List.toFinset_card_of_nodup h.keys, h.size]

end Holds

/-- A key leads to the shaft of its only entry that is not refused, and a shaft has the key of its
latest one. They lead back to each other just as long as no shaft with a key is recorded again:
after that its earlier key still leads to the shaft, which has another key or none. -/
theorem two_way_iff (es : List Entry) :
    (∀ key shaft, (ofEntries es).get key = .ok shaft ↔ ⟨shaft, some key⟩ ∈ accepted es) ∧
    (∀ shaft, (ofEntries es).keyOf? shaft =
      ((accepted es).find? (·.shaft = shaft)).bind (·.key?)) ∧
    (∀ key shaft, (ofEntries es).keyOf? shaft = some key → (ofEntries es).get key = .ok shaft) ∧
    ((ofEntries es).TwoWay ↔
      (accepted es).Pairwise fun later e => e.key?.isSome → later.shaft ≠ e.shaft) ∧
    (∀ key, (ofEntries es).contains key = true ↔ ∃ shaft, (ofEntries es).get key = .ok shaft) ∧
    {key | ∃ shaft, (ofEntries es).get key = .ok shaft}.encard = (ofEntries es).size ∧
    ∀ key shaft error, (ofEntries es).insert key shaft = .error error →
      error = .duplicateKey key ∧
      ∀ later, ofEntries (es ++ ⟨shaft, some key⟩ :: later) = ofEntries (es ++ later) := by
  have h := holds_ofEntries es
  refine ⟨h.get_iff, h.keyOf?_eq, fun key shaft => h.get_eq_ok, h.twoWay_iff,
    fun key => contains_iff, h.encard_eq, fun key shaft error herror => ?_⟩
  refine ⟨(insert_eq_error_iff.mp herror).2, fun later => ?_⟩
  rw [ofEntries, ofEntries, List.foldl_append, List.foldl_append, List.foldl_cons]
  exact congrArg (later.foldl enter) (enter_of_error herror)

/-- A shaft that is first recorded without a name, and a key that is asked for twice. -/
theorem two_way_named :
    let es : List Entry := [⟨⟨2⟩, none⟩, ⟨⟨0⟩, some 17⟩, ⟨⟨2⟩, some (-3)⟩, ⟨⟨1⟩, some 17⟩]
    (ofEntries es).TwoWay ∧ (ofEntries es).size = 2 ∧ (ofEntries es).keyOf? ⟨2⟩ = some (-3) ∧
      (ofEntries es).insert (-3) ⟨5⟩ = .error (.duplicateKey (-3)) ∧
      ∀ later, ofEntries (es ++ ⟨⟨5⟩, some (-3)⟩ :: later) = ofEntries (es ++ later) := by
  intro es
  obtain ⟨-, -, -, htwo, -, -, hrefused⟩ := two_way_iff es
  have herror : (ofEntries es).insert (-3) ⟨5⟩ = .error (.duplicateKey (-3)) := rfl
  exact ⟨htwo.mpr (by decide), by decide +kernel, by decide +kernel, herror,
    (hrefused _ _ _ herror).2⟩

/-- Both keys of a shaft lead to it, and it has the second one only. -/
theorem renamed_not_two_way :
    let k := ofEntries [⟨⟨0⟩, some 1⟩, ⟨⟨0⟩, some 2⟩]
    k.get 1 = .ok ⟨0⟩ ∧ k.get 2 = .ok ⟨0⟩ ∧ k.keyOf? ⟨0⟩ = some 2 ∧ ¬ k.TwoWay := by
  intro k
  have hkey : k.keyOf? ⟨0⟩ = some 2 := by decide +kernel
  refine ⟨rfl, rfl, hkey, fun htwo => ?_⟩
  have hfirst := (htwo 1 ⟨0⟩).mp rfl
  rw [hkey] at hfirst
  cases hfirst

end ShaftKeys

end DifferentialAnalyzer
