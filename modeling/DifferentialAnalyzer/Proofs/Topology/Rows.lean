import DifferentialAnalyzer.Topology.Graph
import Mathlib.Data.List.Flatten

/-! Rows that stand behind one another in an array. The offsets cut it so that every row can be read
back. -/

namespace DifferentialAnalyzer.Rows

/-- The array consists of these rows. -/
structure Holds (r : Rows) (rows : List (List PortId)) : Prop where
  items : r.items.toList = rows.flatten
  size : r.offsets.size = rows.length + 1
  offset : ∀ i ≤ rows.length, r.offsets[i]? = some (rows.take i).flatten.length

theorem holds_empty : empty.Holds [] where
  items := rfl
  size := rfl
  offset i hi := by
    obtain rfl : i = 0 := Nat.le_zero.mp hi
    rfl

theorem Holds.append {r : Rows} {rows : List (List PortId)} (h : r.Holds rows)
    (row : Array PortId) : (r.append row).Holds (rows ++ [row.toList]) where
  items := by simp [Rows.append, h.items]
  size := by simp [Rows.append, h.size]
  offset i hi := by
    rw [List.length_append, List.length_singleton] at hi
    rcases Nat.lt_or_eq_of_le hi with hlt | rfl
    · have hle := Nat.le_of_lt_succ hlt
      have hget : (r.append row).offsets[i]? = r.offsets[i]? :=
        (Array.getElem?_push ..).trans (if_neg (by rw [h.size]; omega))
      rw [hget, h.offset i hle, List.take_append_of_le_length hle]
    · have hlast : (r.append row).offsets[rows.length + 1]? = some (r.items ++ row).size := by
        simp [Rows.append, ← h.size]
      rw [hlast, List.take_of_length_le (by simp), Array.size_append, ← Array.length_toList,
        h.items]
      simp

theorem Holds.foldl {r : Rows} {done : List (List PortId)} (h : r.Holds done)
    (rows : List (Array PortId)) :
    (rows.foldl Rows.append r).Holds (done ++ rows.map Array.toList) := by
  induction rows generalizing r done with
  | nil => simpa using h
  | cons row rows ih => simpa using ih (h.append row)

theorem holds_ofArrays (rows : Array (Array PortId)) :
    (ofArrays rows).Holds (rows.toList.map Array.toList) := by
  have hh := holds_empty.foldl rows.toList
  rwa [List.nil_append, Array.foldl_toList] at hh

section Holds

variable {r : Rows} {rows : List (List PortId)}

theorem Holds.size_items (h : r.Holds rows) : r.items.size = rows.flatten.length := by
  rw [← Array.length_toList, h.items]

/-- The offsets of a row are in order and lie within the array. -/
theorem Holds.bounds (h : r.Holds rows) {i : Nat} (hi : i < rows.length) :
    ∃ start stop, r.offsets[i]? = some start ∧ r.offsets[i + 1]? = some stop ∧ start ≤ stop ∧
      stop ≤ r.items.size := by
  refine ⟨_, _, h.offset i (Nat.le_of_lt hi), h.offset (i + 1) hi, ?_, ?_⟩
  · exact (List.Sublist.flatten (List.take_sublist_take_left (Nat.le_succ i))).length_le
  · rw [h.size_items]
    exact (List.Sublist.flatten (List.take_sublist (i + 1) rows)).length_le

theorem Holds.row_eq (h : r.Holds rows) {i : Nat} {row : List PortId} (hi : rows[i]? = some row) :
    r.row i = row := by
  obtain ⟨hlt, rfl⟩ := List.getElem?_eq_some_iff.mp hi
  have hsplit : rows.flatten =
      (rows.take i).flatten ++ (rows[i] ++ (rows.drop (i + 1)).flatten) := by
    rw [← List.flatten_cons, List.getElem_cons_drop, ← List.flatten_append, List.take_append_drop]
  have hstop : (rows.take (i + 1)).flatten.length =
      (rows.take i).flatten.length + rows[i].length := by
    rw [List.take_succ_eq_append_getElem hlt, List.flatten_append, List.length_append,
      List.flatten_singleton]
  rw [Rows.row, Array.getD_eq_getD_getElem?, Array.getD_eq_getD_getElem?,
    h.offset i (Nat.le_of_lt hlt), h.offset (i + 1) hlt, Option.getD_some, Option.getD_some,
    Array.toList_extract, List.extract_eq_take_drop, h.items, hstop, hsplit, List.drop_left,
    Nat.add_sub_cancel_left, List.take_left]

end Holds

end DifferentialAnalyzer.Rows
