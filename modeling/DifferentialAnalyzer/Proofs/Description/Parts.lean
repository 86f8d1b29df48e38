import DifferentialAnalyzer.Proofs.Description.Fields
import DifferentialAnalyzer.Proofs.Fallible

/-! Components of each kind that are read again. A component becomes another one only where a double
does. -/

namespace DifferentialAnalyzer

open Document

/-- The doubles of a factor. -/
def Factor.doubles : Factor → List Float
  | .number x => [x]
  | .formula _ => []

namespace Part

/-- The doubles that the machine is built with. -/
def used : Part → List Float
  | .integrator _ _ _ _ initial => [initial]
  | .multiplier _ _ factor => factor.doubles
  | .motor _ _ rotation => rotation.toList
  | .outputTable _ _ _ initial1 initial2 => [initial1, initial2]
  | .gearPair _ _ inputRatio outputRatio => [inputRatio, outputRatio]
  | _ => []

/-- The doubles that say what a drawing shows. -/
def bounds : Part → List Float
  | .functionTable _ _ _ xMin xMax yMin yMax =>
    xMin.toList ++ xMax.toList ++ yMin.toList ++ yMax.toList
  | _ => []

/-- All shafts that a component names have ids that words hold. -/
def HoldsShafts (p : Part) : Prop :=
  ∀ field ∈ p.shaftFields, ∀ key ∈ field.2, Word.holdsSigned key = true

/-- The fields of a component, its kind among them. -/
def typedEntries (p : Part) : Entries :=
  entry "type" (.text p.name) ++ p.toEntries

end Part

theorem Factor.ofDocument_reread {f : Factor} :
    ofDocument f.toDocument.reread = some f ↔ ∀ x ∈ f.doubles, Restored x := by
  cases f with
  | formula source => simp [ofDocument, toDocument, doubles, asFloat, asked, asText, untag]
  | number x =>
    simp only [toDocument, doubles, List.mem_singleton, forall_eq, restored_iff, ofFloat, reread]
    rcases rereadReal_cases x with h | h | ⟨z, h⟩ <;>
      simp [h, ofDocument, asFloat, asked, asText, untag, Number.toFloat]

namespace Part

theorem ofFields_reread {p : Part} (h : p.HoldsShafts) :
    ofFields (fieldsOf p.typedEntries) = some p ↔
      (∀ x ∈ p.used, Restored x) ∧ ∀ x ∈ p.bounds, Restored x := by
  -- Whole numbers, texts and flags are read as they are, so that each kind comes down to
  -- its doubles.
  cases p with
  | integrator input integrand output reversed initial =>
    simp [HoldsShafts, shaftFields] at h
    simp [ofFields, typedEntries, toEntries, Fields.required, Fields.withDefault, Fields.get?_eq,
      kindOf, names, name, h, used, bounds, Option.bind_eq_some_iff, asFloat_reread]
  | differential a sum b =>
    simp [HoldsShafts, shaftFields] at h
    simp [ofFields, typedEntries, toEntries, Fields.required, Fields.optional_eq, Fields.get?_eq,
      kindOf, names, name, used, bounds, readIf_ofInt h.1, readIf_ofInt h.2.1, readIf_ofInt h.2.2]
  | multiplier input output factor =>
    simp [HoldsShafts, shaftFields] at h
    simp [ofFields, typedEntries, toEntries, Fields.required, Fields.withDefault, Fields.get?_eq,
      kindOf, names, name, h, used, bounds, Option.bind_eq_some_iff, Factor.ofDocument_reread]
  | functionTable input output formula xMin xMax yMin yMax =>
    simp [HoldsShafts, shaftFields] at h
    simp [ofFields, typedEntries, toEntries, Fields.required, Fields.optional_eq, Fields.get?_eq,
      kindOf, names, name, h, used, bounds, Option.bind_eq_some_iff, readIf_ofFloat, or_imp,
      forall_and]
  | motor output reversed rotation =>
    simp [HoldsShafts, shaftFields] at h
    simp [ofFields, typedEntries, toEntries, Fields.required, Fields.withDefault,
      Fields.optional_eq, Fields.get?_eq, kindOf, names, name, h, used, bounds,
      Option.bind_eq_some_iff, readIf_ofFloat]
  | outputTable input output1 output2 initial1 initial2 =>
    simp [HoldsShafts, shaftFields] at h
    simp [ofFields, typedEntries, toEntries, Fields.required, Fields.withDefault,
      Fields.optional_eq, Fields.get?_eq, kindOf, names, name, h.1, readIf_ofInt h.2.1,
      readIf_ofInt h.2.2, used, bounds, Option.bind_eq_some_iff, asFloat_reread]
  | crossConnect horizontal vertical reversed =>
    simp [HoldsShafts, shaftFields] at h
    simp [ofFields, typedEntries, toEntries, Fields.required, Fields.withDefault, Fields.get?_eq,
      kindOf, names, name, h, used, bounds]
  | gearPair shaft1 shaft2 inputRatio outputRatio =>
    simp [HoldsShafts, shaftFields] at h
    simp [ofFields, typedEntries, toEntries, Fields.required, Fields.get?_eq, kindOf, names, name,
      h, used, bounds, Option.bind_eq_some_iff, asFloat_reread]
  | gear horizontal vertical =>
    simp [HoldsShafts, shaftFields] at h
    simp [ofFields, typedEntries, toEntries, Fields.required, Fields.get?_eq, kindOf, names, name,
      h, used, bounds]
  | dial input =>
    simp [HoldsShafts, shaftFields] at h
    simp [ofFields, typedEntries, toEntries, Fields.required, Fields.get?_eq, kindOf, names, name,
      h, used, bounds]
  | label note =>
    simp [ofFields, typedEntries, toEntries, Fields.required, Fields.optional_eq, Fields.get?_eq,
      kindOf, names, name, used, bounds]

/-- What stands in a field of a component. -/
def Holds (p : Part) : Document → Prop
  | .text _ | .bool _ => True
  | .number (.integer key) => ∃ field ∈ p.shaftFields, key ∈ field.2
  | .number (.real x) => x ∈ p.used ∨ x ∈ p.bounds
  | _ => False

theorem typedEntries_hold (p : Part) : ∀ e ∈ p.typedEntries,
    (∃ name, e.1 = .text name ∧ Component.placement.contains name = false) ∧ p.Holds e.2 := by
  cases p with
  | multiplier input output factor =>
    simp only [typedEntries, toEntries, List.forall_mem_append, forall_mem_entry]
    cases factor <;>
      simp [Holds, ofInt, ofFloat, shaftFields, used, Factor.doubles, Factor.toDocument,
        Component.placement]
  | _ =>
    simp only [typedEntries, toEntries, List.forall_mem_append, forall_mem_entry,
      forall_mem_entryIf]
    simp +contextual [Holds, ofInt, ofFloat, shaftFields, used, bounds, Component.placement]

section Held

variable {p : Part} {d : Document} {depth : Nat}

theorem Holds.written (h : p.Holds d) (hshafts : p.HoldsShafts) : d.Written := by
  cases d with
  | number n =>
    cases n with
    | integer key =>
      obtain ⟨field, hfield, hkey⟩ := h
      exact Word.holds_of_holdsSigned (hshafts field hfield key hkey)
    | real x => trivial
  | text s => trivial
  | bool b => trivial
  | _ => exact h.elim

theorem Holds.eq_of_resolved (h : p.Holds d) {e : Document}
    (he : d.reread.resolved depth = some e) : e = d.reread := by
  cases d with
  | number n =>
    cases n with
    | integer key => exact (Option.some.inj he).symm
    | real x =>
      rw [reread] at he ⊢
      rcases rereadReal_cases x with hx | hx | ⟨y, hx⟩ <;> rw [hx] at he ⊢ <;>
        simp [Document.resolved] at he <;> exact he.symm
  | text s => exact (Option.some.inj he).symm
  | bool b => exact (Option.some.inj he).symm
  | _ => exact h.elim

theorem Holds.resolved_reread (h : p.Holds d) (hused : ∀ x ∈ p.used, Restored x)
    (hbounds : ∀ x ∈ p.bounds, Restored x) : d.reread.resolved depth = some d.reread := by
  cases d with
  | number n =>
    cases n with
    | integer key => rfl
    | real x =>
      have hx := restored_iff.mp (h.elim (hused x) (hbounds x))
      rw [reread, hx]
      rfl
  | text s => rfl
  | bool b => rfl
  | _ => exact h.elim

end Held

theorem written_typedEntries {p : Part} (h : p.HoldsShafts) : WrittenEntries p.typedEntries := by
  rw [writtenEntries_iff]
  intro e he
  obtain ⟨⟨name, hname, -⟩, hheld⟩ := p.typedEntries_hold e he
  exact ⟨⟨name, hname⟩, hheld.written h⟩

theorem exists_of_mem_fieldsOf {p : Part} {field : String × Document}
    (h : field ∈ fieldsOf p.typedEntries) :
    Component.placement.contains field.1 = false ∧ ∃ d, p.Holds d ∧ field.2 = d.reread := by
  obtain ⟨e, he, rfl⟩ := List.mem_map.mp h
  obtain ⟨⟨name, hname, hplacement⟩, hheld⟩ := p.typedEntries_hold e he
  exact ⟨by rw [hname]; exact hplacement, e.2, hheld, rfl⟩

theorem filter_typedEntries {name : String} (h : Component.placement.contains name = true)
    (p : Part) : ((fieldsOf p.typedEntries).filter fun field => field.1 == name) = [] := by
  rw [List.filter_eq_nil_iff]
  intro field hfield he
  have hplacement := (exists_of_mem_fieldsOf hfield).1
  rw [eq_of_beq he, h] at hplacement
  cases hplacement

theorem filter_not_placement (p : Part) : ((fieldsOf p.typedEntries).filter fun field =>
    !Component.placement.contains field.1) = fieldsOf p.typedEntries := by
  rw [List.filter_eq_self]
  intro field hfield
  rw [(exists_of_mem_fieldsOf hfield).1]
  rfl

/-- The fields of a component, each with its meaning, are those of the part. -/
theorem ofFields_resolved {p : Part} (h : p.HoldsShafts) (depth : Nat) :
    ((fieldsOf p.typedEntries).mapM fun field : String × Document =>
      (field.2.resolved depth).map (field.1, ·)).bind ofFields = some p ↔
        (∀ x ∈ p.used, Restored x) ∧ ∀ x ∈ p.bounds, Restored x := by
  rw [← ofFields_reread h, Option.bind_eq_some_iff]
  constructor
  -- A field that has a meaning means what it says, so nothing but the fields can be resolved.
  · rintro ⟨own, hown, hp⟩
    have hsame : own = fieldsOf p.typedEntries := by
      refine eq_of_mapM_eq_some (fun field hfield other he => ?_) hown
      obtain ⟨-, d, hheld, hd⟩ := exists_of_mem_fieldsOf hfield
      obtain ⟨e, hresolved, rfl⟩ := Option.map_eq_some_iff.mp he
      rw [hd] at hresolved
      rw [hheld.eq_of_resolved hresolved, ← hd]
    rwa [hsame] at hp
  · intro hp
    obtain ⟨hused, hbounds⟩ := (ofFields_reread h).mp hp
    refine ⟨_, mapM_eq_some_iff.mpr (List.forall₂_same.mpr fun field hfield => ?_), hp⟩
    obtain ⟨-, d, hheld, hd⟩ := exists_of_mem_fieldsOf hfield
    rw [hd, hheld.resolved_reread hused hbounds, Option.map_some, ← hd]

end Part

end DifferentialAnalyzer
