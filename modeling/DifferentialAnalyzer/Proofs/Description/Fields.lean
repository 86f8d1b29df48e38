import DifferentialAnalyzer.Description.Decode
import DifferentialAnalyzer.Description.Encode
import DifferentialAnalyzer.Proofs.Document.Reread

/-! Fields that are read again. What a field holds is what was written there, except for doubles. -/

namespace DifferentialAnalyzer

open Document

theorem Word.holds_of_holdsSigned {n : Int} (h : holdsSigned n = true) : holds n = true := by
  simp only [holdsSigned, holds, Bool.and_eq_true, decide_eq_true_eq] at h ⊢
  simp only [half, count] at h ⊢
  omega

namespace Document

/-- The fields of entries as they are read again. -/
def fieldsOf (entries : Entries) : Fields :=
  entries.map fun e => (e.1.asText.getD "", e.2.reread)

@[simp] theorem fieldsOf_append (a b : Entries) : fieldsOf (a ++ b) = fieldsOf a ++ fieldsOf b :=
  List.map_append

@[simp] theorem fieldsOf_entry (name : String) (d : Document) :
    fieldsOf (entry name d) = [(name, d.reread)] :=
  rfl

/-- The field of a value that may be absent. -/
def fieldIf (name : String) : Option Document → Fields
  | some d => [(name, d)]
  | none => []

@[simp] theorem fieldsOf_entryIf {α : Type} (name : String) (write : α → Document) (o : Option α) :
    fieldsOf (entryIf name write o) = fieldIf name (o.map fun a => (write a).reread) := by
  cases o <;> rfl

theorem filter_fieldIf (name : String) {p : String × Document → Bool} {keep : Bool}
    (h : ∀ d, p (name, d) = keep) (o : Option Document) :
    (fieldIf name o).filter p = if keep then fieldIf name o else [] := by
  cases o with
  | none => cases keep <;> rfl
  | some d => cases keep <;> simp [fieldIf, h]

@[simp] theorem filter_fieldIf_name (name wanted : String) (o : Option Document) :
    ((fieldIf name o).filter fun field => field.1 == wanted) =
      if name == wanted then fieldIf name o else [] :=
  filter_fieldIf name (fun _ => rfl) o

theorem ofEntries_reread {entries : Entries} (h : WrittenEntries entries) :
    Fields.ofEntries (rereadEntries entries) = some (fieldsOf entries) := by
  induction entries with
  | nil => rfl
  | cons e rest ih =>
    obtain ⟨key, d⟩ := e
    obtain ⟨⟨s, rfl⟩, -, hrest⟩ := h
    have htext : asText (.text s) = some s := rfl
    have hfields := ih hrest
    rw [Fields.ofEntries] at hfields ⊢
    rw [rereadEntries, List.mapM_cons, hfields]
    simp only [htext, Option.map_some, Option.bind_eq_bind, Option.bind_some]
    rfl

theorem writtenEntries_iff {entries : Entries} :
    WrittenEntries entries ↔ ∀ e ∈ entries, (∃ s, e.1 = .text s) ∧ e.2.Written := by
  induction entries with
  | nil => simp [WrittenEntries]
  | cons e rest ih => rw [List.forall_mem_cons, ← ih, WrittenEntries, and_assoc]

theorem forall_mem_entry {name : String} {d : Document} {P : Document × Document → Prop} :
    (∀ e ∈ entry name d, P e) ↔ P (.text name, d) :=
  List.forall_mem_singleton

theorem forall_mem_entryIf {α : Type} {name : String} {write : α → Document} {o : Option α}
    {P : Document × Document → Prop} :
    (∀ e ∈ entryIf name write o, P e) ↔ ∀ a ∈ o, P (.text name, write a) := by
  cases o <;> simp [entryIf, entry]

/-- The value of a field if there is one at most. -/
def single : Fields → Option (Option Document)
  | [] => some none
  | [(_, d)] => some (some d)
  | _ => none

theorem Fields.get?_eq (fields : Fields) (name : String) :
    fields.get? name = single (fields.filter fun field => field.1 == name) := by
  unfold get? single
  rfl

@[simp] theorem single_nil : single [] = some none :=
  rfl

@[simp] theorem single_singleton (name : String) (d : Document) :
    single [(name, d)] = some (some d) :=
  rfl

@[simp] theorem single_fieldIf (name : String) (o : Option Document) :
    single (fieldIf name o) = some o := by
  cases o <;> rfl

/-- Reads a value that may be absent or empty. -/
def readIf {α : Type} (read : Document → Option α) : Option Document → Option (Option α)
  | none => some none
  | some d => asOption read d

theorem Fields.withDefault_of_get? {α : Type} {fields : Fields} {name : String} {d : Document}
    (h : fields.get? name = some (some d)) (default : α) (read : Document → Option α) :
    fields.withDefault name default read = read d := by
  rw [withDefault, h]
  rfl

theorem Fields.optional_eq {α : Type} (fields : Fields) (name : String)
    (read : Document → Option α) :
    fields.optional name read = (fields.get? name).bind (readIf read) := by
  unfold optional withDefault
  rcases fields.get? name with _ | _ | d <;> rfl

@[simp] theorem asInt_reread_ofInt {n : Int} (h : Word.holdsSigned n = true) :
    asInt (ofInt n).reread = some n := by
  simp [asInt, ofInt, reread, asked, h]

theorem readIf_ofInt {o : Option Int} (h : ∀ n ∈ o, Word.holdsSigned n = true) :
    readIf asInt (o.map fun n => (ofInt n).reread) = some o := by
  cases o with
  | none => rfl
  | some n =>
    have hn := asInt_reread_ofInt (h n rfl)
    simp only [ofInt, reread] at hn
    simp [readIf, ofInt, reread, asOption, hn]

@[simp] theorem reread_bool (b : Bool) : (Document.bool b).reread = .bool b :=
  rfl

@[simp] theorem reread_text (s : String) : (Document.text s).reread = .text s :=
  rfl

@[simp] theorem asBool_bool (b : Bool) : asBool (.bool b) = some b :=
  rfl

@[simp] theorem asText_text (s : String) : asText (.text s) = some s :=
  rfl

@[simp] theorem readIf_text (o : Option String) : readIf asText (o.map Document.text) = some o := by
  cases o <;> rfl

theorem asFloat_rereadReal {x y : Float} :
    asFloat (rereadReal x) = some y ↔ rereadReal x = .number (.real y) := by
  rcases rereadReal_cases x with h | h | ⟨z, h⟩ <;> simp [h, asFloat, asked, Number.toFloat]

theorem asFloat_reread {x : Float} : asFloat (ofFloat x).reread = some x ↔ Restored x := by
  rw [restored_iff, ← asFloat_rereadReal]
  rfl

theorem readIf_ofFloat {o : Option Float} :
    readIf asFloat (o.map fun x => (ofFloat x).reread) = some o ↔ ∀ x ∈ o, Restored x := by
  cases o with
  | none => simp [readIf]
  | some x =>
    simp only [Option.map_some, readIf, Option.mem_some_iff, forall_eq', restored_iff, ofFloat,
      reread]
    rcases rereadReal_cases x with h | h | ⟨z, h⟩ <;>
      simp [h, asOption, asFloat, asked, Number.toFloat]

end Document

end DifferentialAnalyzer
