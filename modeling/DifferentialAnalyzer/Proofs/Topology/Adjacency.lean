import DifferentialAnalyzer.Proofs.Topology.Fitting
import DifferentialAnalyzer.Proofs.Topology.Rows
import DifferentialAnalyzer.Proofs.Fallible
import Mathlib.Data.List.Nodup

/-! Ports sorted by their shafts. Each row has the ports of its shaft in the order in which they are
numbered, and every port is in one row, as the last check of a draft wants it. -/

namespace DifferentialAnalyzer.Topology

namespace Draft

/-- Every row gets the ports of its shaft, in the order in which they are numbered. -/
theorem foldl_groupPorts (ports : List (Port × Nat)) (table : Array (Array PortId)) (s : Nat) :
    ((ports.foldl (fun table p => table.modify p.1.shaft.index (·.push ⟨p.2⟩)) table)[s]?).map
        Array.toList =
      (table[s]?).map fun row =>
        row.toList ++ (ports.filter (·.1.shaft.index = s)).map fun p => ⟨p.2⟩ := by
  induction ports generalizing table with
  | nil => simp
  | cons p rest ih =>
    rw [List.foldl_cons, ih, Array.getElem?_modify, List.filter_cons]
    by_cases hs : p.1.shaft.index = s
    · cases table[s]? <;> simp [hs]
    · simp [hs]

theorem size_foldl_groupPorts (ports : List (Port × Nat)) (table : Array (Array PortId)) :
    (ports.foldl (fun table p => table.modify p.1.shaft.index (·.push ⟨p.2⟩)) table).size =
      table.size := by
  induction ports generalizing table with
  | nil => rfl
  | cons p rest ih => rw [List.foldl_cons, ih, Array.size_modify]

theorem length_flatMap_modify (rows : List (Array PortId)) (p : PortId) {s : Nat}
    (h : s < rows.length) : ((rows.modify s (·.push p)).flatMap Array.toList).length =
      (rows.flatMap Array.toList).length + 1 := by
  induction rows generalizing s with
  | nil => simp at h
  | cons row rows ih =>
    cases s with
    | zero =>
      rw [List.modify_zero_cons, List.flatMap_cons, List.flatMap_cons, List.length_append,
        List.length_append, Array.toList_push, List.length_append, List.length_singleton]
      omega
    | succ s =>
      rw [List.modify_succ_cons, List.flatMap_cons, List.flatMap_cons, List.length_append,
        List.length_append, ih (Nat.lt_of_succ_lt_succ h), Nat.add_assoc]

theorem length_flatMap_foldl_groupPorts (ports : List (Port × Nat)) (table : Array (Array PortId))
    (h : ∀ p ∈ ports, p.1.shaft.index < table.size) :
    ((ports.foldl (fun table p => table.modify p.1.shaft.index (·.push ⟨p.2⟩)) table).toList.flatMap
      Array.toList).length = (table.toList.flatMap Array.toList).length + ports.length := by
  induction ports generalizing table with
  | nil => rfl
  | cons p rest ih =>
    obtain ⟨hp, hrest⟩ := List.forall_mem_cons.mp h
    rw [List.foldl_cons, ih _ (by simpa using hrest), Array.toList_modify,
      length_flatMap_modify _ _ (by simpa using hp), List.length_cons]
    omega

/-- What is picked from a list keeps the order of its numbers. -/
theorem pairwise_filter_zipIdx {α : Type} (l : List α) (p : α × Nat → Bool) :
    ((l.zipIdx.filter p).map fun x => Id.mk x.2).Pairwise (·.index < ·.index) := by
  have hsub : ((l.zipIdx.filter p).map (·.2)).Sublist (l.zipIdx.map (·.2)) :=
    List.filter_sublist.map _
  have hsorted : (l.zipIdx.map (·.2)).Pairwise (· < ·) := by
    rw [List.zipIdx_map_snd]
    exact List.pairwise_lt_range' ..
  rw [List.pairwise_map]
  exact List.pairwise_map.mp (hsorted.sublist hsub)

/-- The ports on a shaft, in the order in which they are numbered. -/
def portsAt (ports : List Port) (s : ShaftId) : List PortId :=
  (ports.zipIdx.filter fun p => p.1.shaft = s).map fun p => ⟨p.2⟩

theorem mem_portsAt_iff {ports : List Port} {s : ShaftId} {p : PortId} :
    p ∈ portsAt ports s ↔ (ports[p.index]?).map (·.shaft) = some s := by
  obtain ⟨i⟩ := p
  simp only [portsAt, List.mem_map, List.mem_filter, List.mem_zipIdx_iff_getElem?,
    decide_eq_true_eq, Id.mk.injEq, Prod.exists, exists_eq_right, Option.map_eq_some_iff]

theorem pairwise_portsAt (ports : List Port) (s : ShaftId) :
    (portsAt ports s).Pairwise (·.index < ·.index) :=
  pairwise_filter_zipIdx ports _

theorem nodup_portsAt (ports : List Port) (s : ShaftId) : (portsAt ports s).Nodup := by
  refine (pairwise_portsAt ports s).imp ?_
  rintro p _ hlt rfl
  exact Nat.lt_irrefl _ hlt

/-- The ports themselves. -/
theorem filterMap_portsAt (ports : List Port) (s : ShaftId) :
    (portsAt ports s).filterMap (fun p => ports[p.index]?) = ports.filter (·.shaft = s) := by
  have hm : ∀ p ∈ ports.zipIdx.filter (fun p => p.1.shaft = s),
      ((fun p : PortId => ports[p.index]?) ∘ fun p : Port × Nat => Id.mk p.2) p = some p.1 := by
    intro p hp
    exact List.mem_zipIdx_iff_getElem?.mp (List.mem_filter.mp hp).1
  have hz := congrArg (List.filter (·.shaft = s)) (List.zipIdx_map_fst 0 ports)
  rw [List.filter_map] at hz
  rw [portsAt, List.filterMap_map, List.filterMap_congr hm, ← hz, ← List.filterMap_eq_map]
  rfl

theorem size_groupPorts (count : Nat) (ports : List Port) : (groupPorts count ports).size = count :=
  (size_foldl_groupPorts ..).trans (by simp)

/-- What stands in the row of a shaft. -/
theorem getElem?_groupPorts {count : Nat} (ports : List Port) {s : ShaftId} (hs : s.index < count) :
    ((groupPorts count ports)[s.index]?).map Array.toList = some (portsAt ports s) := by
  have hrow := foldl_groupPorts ports.zipIdx (Array.replicate count #[]) s.index
  have hshaft : ∀ p : Port × Nat, decide (p.1.shaft.index = s.index) = decide (p.1.shaft = s) := by
    rintro ⟨⟨_, ⟨j⟩, _⟩, _⟩
    obtain ⟨i⟩ := s
    simp
  have hfirst : (Array.replicate count (#[] : Array PortId))[s.index]? = some #[] := by simp [hs]
  simp only [hfirst, hshaft, Option.map_some, List.nil_append] at hrow
  exact hrow

theorem checkRow_eq_ok {ports : Array Port} {s : ShaftId} {seen row : List PortId}
    (hrow : ∀ p ∈ row, (ports[p.index]?).map (·.shaft) = some s) (hnodup : row.Nodup)
    (hnew : ∀ p ∈ row, p ∉ seen) : checkRow ports s seen row = .ok (row.reverse ++ seen) := by
  induction row generalizing seen with
  | nil => rfl
  | cons p rest ih =>
    obtain ⟨hp, hrest⟩ := List.forall_mem_cons.mp hrow
    obtain ⟨hnot, hnodup⟩ := List.nodup_cons.mp hnodup
    rw [checkRow, if_pos ⟨hp, hnew p List.mem_cons_self⟩, ih hrest hnodup]
    · simp
    · intro q hq
      rw [List.mem_cons, not_or]
      exact ⟨fun he => hnot (he ▸ hq), hnew q (List.mem_cons_of_mem _ hq)⟩

/-- The shafts of the ports that were seen come before those of the rows. -/
theorem checkRows_eq_ok {ports : Array Port} {seen : List PortId} {rows : List (List PortId)}
    {n : Nat}
    (hrows : ∀ row ∈ rows.zipIdx n, row.1.Nodup ∧
      ∀ p ∈ row.1, (ports[p.index]?).map (·.shaft) = some ⟨row.2⟩)
    (hseen : ∀ p ∈ seen, ∃ i < n, (ports[p.index]?).map (·.shaft) = some ⟨i⟩) :
    checkRows ports seen (rows.zipIdx n) = .ok () := by
  induction rows generalizing seen n with
  | nil => rfl
  | cons row rows ih =>
    rw [List.zipIdx_cons, List.forall_mem_cons] at hrows
    obtain ⟨⟨hnodup, hrow⟩, hrest⟩ := hrows
    have hnew : ∀ p ∈ row, p ∉ seen := by
      intro p hp hmem
      obtain ⟨i, hi, hshaft⟩ := hseen p hmem
      rw [hrow p hp, Option.some.injEq, Id.mk.injEq] at hshaft
      omega
    rw [List.zipIdx_cons, checkRows, checkRow_eq_ok hrow hnodup hnew, ok_bind]
    refine ih hrest fun p hp => ?_
    rw [List.mem_append, List.mem_reverse] at hp
    rcases hp with hp | hp
    · exact ⟨n, Nat.lt_succ_self n, hrow p hp⟩
    · obtain ⟨i, hi, hshaft⟩ := hseen p hp
      exact ⟨i, Nat.lt_succ_of_lt hi, hshaft⟩

theorem holds_sortPorts (count : Nat) (ports : List Port) :
    (sortPorts count ports).Holds ((groupPorts count ports).toList.map Array.toList) :=
  Rows.holds_ofArrays _

theorem row_sortPorts {count : Nat} (ports : List Port) {s : ShaftId} (hs : s.index < count) :
    (sortPorts count ports).row s.index = portsAt ports s := by
  refine (holds_sortPorts count ports).row_eq ?_
  rw [List.getElem?_map, Array.getElem?_toList]
  exact getElem?_groupPorts ports hs

/-- Every port on one of the shafts is in a row. -/
theorem size_items_sortPorts {count : Nat} {ports : List Port}
    (h : ∀ p ∈ ports, p.shaft.index < count) :
    (sortPorts count ports).items.size = ports.length := by
  have hbound : ∀ p ∈ ports.zipIdx,
      p.1.shaft.index < (Array.replicate count (#[] : Array PortId)).size := by
    intro p hp
    rw [Array.size_replicate]
    exact h p.1 (List.mem_of_getElem? (List.mem_zipIdx_iff_getElem?.mp hp))
  have hempty :
      ((Array.replicate count (#[] : Array PortId)).toList.flatMap Array.toList) = [] := by
    simp
  rw [(holds_sortPorts count ports).size_items, ← List.flatMap_def]
  refine (length_flatMap_foldl_groupPorts _ _ hbound).trans ?_
  rw [hempty, List.length_zipIdx, List.length_nil, Nat.zero_add]

/-- Sorted ports pass the check if they are on shafts of the draft at all. -/
theorem checkSorted_sortPorts {d : Draft}
    (h : ∀ p ∈ d.ports.toList, p.shaft.index < d.shafts.size) :
    d.checkSorted (sortPorts d.shafts.size d.ports.toList) = .ok () := by
  have hoffsets : (sortPorts d.shafts.size d.ports.toList).offsets.size = d.shafts.size + 1 := by
    rw [(holds_sortPorts _ _).size, List.length_map, Array.length_toList, size_groupPorts]
  have hitems : (sortPorts d.shafts.size d.ports.toList).items.size = d.ports.size :=
    (size_items_sortPorts h).trans Array.length_toList
  rw [checkSorted, if_neg (not_or.mpr ⟨not_not.mpr hoffsets, not_not.mpr hitems⟩)]
  refine checkRows_eq_ok (fun row hrow => ?_) (by simp)
  obtain ⟨hlt, heq⟩ := List.getElem?_eq_some_iff.mp (List.mem_zipIdx_iff_getElem?.mp hrow)
  rw [List.length_map, List.length_range] at hlt
  rw [List.getElem_map, List.getElem_range, row_sortPorts _ (s := ⟨row.2⟩) hlt] at heq
  rw [← heq]
  refine ⟨nodup_portsAt _ _, fun p hp => ?_⟩
  rw [← Array.getElem?_toList]
  exact mem_portsAt_iff.mp hp

end Draft

end DifferentialAnalyzer.Topology
