import DifferentialAnalyzer.Description.Files
import DifferentialAnalyzer.Proofs.Description.Parts
import DifferentialAnalyzer.Proofs.Description.Validity

/-! Descriptions that were saved are loaded again. All that can get lost on the way are doubles. -/

namespace DifferentialAnalyzer

open Document

namespace Document

theorem rereadItems_eq_map (items : List Document) : rereadItems items = items.map reread := by
  induction items with
  | nil => rfl
  | cons d rest ih => rw [rereadItems, List.map_cons, ih]

theorem writtenItems_iff {items : List Document} : WrittenItems items ↔ ∀ d ∈ items, d.Written := by
  induction items with
  | nil => simp [WrittenItems]
  | cons d rest ih => rw [List.forall_mem_cons, ← ih, WrittenItems]

theorem asFields_reread {entries : Entries} (h : (Document.record entries).Written)
    (names : List String) :
    (Document.record entries).reread.asFields names = some (fieldsOf entries) :=
  ofEntries_reread h

theorem written_ofInt {n : Int} (h : Word.holdsSigned n = true) : (ofInt n).Written :=
  Word.holds_of_holdsSigned h

theorem asPair_reread {α : Type} (read : Document → Option α) (a b : Document) :
    asPair read (ofPair a b).reread =
      (read a.reread).bind fun x => (read b.reread).bind fun y => some (x, y) :=
  rfl

theorem readIf_asPair_reread {α : Type} (read : Document → Option α) (a b : Document) :
    readIf (asPair read) (some (ofPair a b).reread) = (asPair read (ofPair a b).reread).map some :=
  rfl

theorem asList_reread {α : Type} {write : α → Document} {read : Document → Option α}
    {xs : List α} :
    ((Document.list (xs.map write)).reread.asList.bind fun items => items.mapM read) = some xs ↔
      ∀ x ∈ xs, read (write x).reread = some x := by
  have hitems : (Document.list (xs.map write)).reread.asList =
      some (xs.map fun x => (write x).reread) := by
    rw [reread, rereadItems_eq_map, List.map_map]
    rfl
  rw [hitems, Option.bind_some, mapM_eq_some_iff, List.forall₂_map_left_iff, List.forall₂_same]

end Document

namespace Cell

/-- Words hold the coordinates. -/
structure HoldsWords (c : Cell) : Prop where
  x : Word.holdsSigned c.x = true
  y : Word.holdsSigned c.y = true

variable {c : Cell}

theorem HoldsWords.written (h : c.HoldsWords) : c.toDocument.Written :=
  ⟨written_ofInt h.x, written_ofInt h.y, trivial⟩

theorem ofDocument_reread (h : c.HoldsWords) : ofDocument c.toDocument.reread = some c := by
  simp [ofDocument, toDocument, asPair_reread, h.x, h.y]

end Cell

namespace ShaftSpan

/-- Words hold the id and the coordinates. -/
structure HoldsWords (s : ShaftSpan) : Prop where
  key : Word.holdsSigned s.key = true
  first : s.first.HoldsWords
  last : s.last.HoldsWords

variable {s : ShaftSpan}

theorem HoldsWords.written (h : s.HoldsWords) : s.toDocument.Written :=
  ⟨⟨_, rfl⟩, written_ofInt h.key, ⟨_, rfl⟩, h.first.written, ⟨_, rfl⟩, h.last.written, trivial⟩

theorem ofDocument_reread (h : s.HoldsWords) : ofDocument s.toDocument.reread = some s := by
  rw [ofDocument, toDocument, asFields_reread h.written]
  simp [Fields.required, Fields.get?_eq, h.key, Cell.ofDocument_reread h.first,
    Cell.ofDocument_reread h.last]

end ShaftSpan

namespace Component

/-- The doubles of the place. -/
def places (c : Component) : List Float :=
  match c.position with
  | some (x, y) => [x, y]
  | none => []

/-- Words hold all whole numbers. -/
structure HoldsWords (c : Component) : Prop where
  id : ∀ id ∈ c.id, Word.holdsSigned id = true
  shafts : c.part.HoldsShafts

variable {c : Component}

def placeEntries (c : Component) : Entries :=
  entryIf "position" (fun (x, y) => ofPair (ofFloat x) (ofFloat y)) c.position

theorem toDocument_eq (c : Component) : c.toDocument =
    .record (entryIf "compID" ofInt c.id ++ (c.placeEntries ++ c.part.typedEntries)) := by
  simp [toDocument, placeEntries, Part.typedEntries]

theorem HoldsWords.written (h : c.HoldsWords) : c.toDocument.Written := by
  rw [toDocument_eq, Written, writtenEntries_iff]
  simp only [List.forall_mem_append]
  refine ⟨forall_mem_entryIf.mpr fun n hn => ⟨⟨_, rfl⟩, written_ofInt (h.id n hn)⟩,
    forall_mem_entryIf.mpr fun place _ => ⟨⟨_, rfl⟩, trivial, trivial, trivial⟩,
    writtenEntries_iff.mp (Part.written_typedEntries h.shafts)⟩

theorem readIf_place : readIf (asPair asFloat) (c.position.map fun place =>
    (ofPair (ofFloat place.1) (ofFloat place.2)).reread) = some c.position ↔
      ∀ x ∈ c.places, Restored x := by
  unfold places
  split
  next x y he =>
    rw [he, Option.map_some, readIf_asPair_reread, asPair_reread]
    simp [Option.bind_eq_some_iff, asFloat_reread]
  next he => simp [he, readIf]

/-- The fields of a component as they are read again. -/
def rereadFields (c : Component) : Fields :=
  fieldIf "compID" (c.id.map fun id => (ofInt id).reread) ++
    (fieldIf "position" (c.position.map fun place =>
      (ofPair (ofFloat place.1) (ofFloat place.2)).reread) ++ fieldsOf c.part.typedEntries)

theorem ofEntries_rereadFields (h : c.HoldsWords) : ∃ entries,
    c.toDocument.reread = .record entries ∧ Fields.ofEntries entries = some c.rereadFields := by
  have hwritten := h.written
  rw [toDocument_eq] at hwritten ⊢
  have hfields := ofEntries_reread hwritten
  simp only [fieldsOf_append, fieldsOf_entryIf, placeEntries] at hfields
  exact ⟨_, rfl, hfields⟩

theorem optional_id (h : c.HoldsWords) : c.rereadFields.optional "compID" asInt = some c.id := by
  rw [Fields.optional_eq, Fields.get?_eq, rereadFields, List.filter_append, List.filter_append,
    Part.filter_typedEntries (by decide)]
  simp [readIf_ofInt h.id]

theorem optional_position :
    c.rereadFields.optional "position" (asPair asFloat) = some c.position ↔
      ∀ x ∈ c.places, Restored x := by
  rw [Fields.optional_eq, Fields.get?_eq, rereadFields, List.filter_append, List.filter_append,
    Part.filter_typedEntries (by decide), ← readIf_place]
  simp

theorem filter_rereadFields (c : Component) :
    (c.rereadFields.filter fun field => !placement.contains field.1) =
      fieldsOf c.part.typedEntries := by
  have hid : ∀ d : Document, (!placement.contains ("compID", d).1) = false := fun _ => rfl
  have hposition : ∀ d : Document, (!placement.contains ("position", d).1) = false := fun _ => rfl
  rw [rereadFields, List.filter_append, List.filter_append, Part.filter_not_placement,
    filter_fieldIf _ hid, filter_fieldIf _ hposition]
  rfl

theorem ofDocument_reread (h : c.HoldsWords) (depth : Nat) :
    ofDocument depth c.toDocument.reread = some c ↔
      (∀ x ∈ c.places, Restored x) ∧ (∀ x ∈ c.part.used, Restored x) ∧
        ∀ x ∈ c.part.bounds, Restored x := by
  obtain ⟨entries, hentries, hfields⟩ := ofEntries_rereadFields h
  rw [← optional_position, ← Part.ofFields_resolved h.shafts depth, hentries, ofDocument]
  simp only [untag, hfields, Option.bind_eq_bind, Option.bind_some, optional_id h,
    filter_rereadFields]
  obtain ⟨id, position, part⟩ := c
  simp [Option.bind_eq_some_iff]

end Component

namespace Settings

theorem written_entries (s : Settings) : (Document.record s.toEntries).Written := by
  rw [Written, writtenEntries_iff]
  exact forall_mem_entryIf.mpr fun text _ => ⟨⟨_, rfl⟩, trivial⟩

theorem ofDocument_reread (s : Settings) :
    ofDocument (Document.record s.toEntries).reread = some s := by
  rw [ofDocument, asFields_reread s.written_entries, toEntries, fieldsOf_entryIf]
  simp [Fields.optional_eq, Fields.get?_eq]

end Settings

namespace Description

/-- Words hold all whole numbers. -/
structure HoldsWords (d : Description) : Prop where
  shafts : ∀ s ∈ d.shafts, s.HoldsWords
  components : ∀ c ∈ d.components, c.HoldsWords

variable {d : Description}

theorem HoldsWords.written (h : d.HoldsWords) : d.toDocument.Written := by
  rw [toDocument, Written, writtenEntries_iff]
  simp only [List.forall_mem_append, forall_mem_entry]
  refine ⟨⟨⟨⟨_, rfl⟩, ?_⟩, ⟨_, rfl⟩, ?_⟩, ?_⟩
  · exact writtenItems_iff.mpr (List.forall_mem_map.mpr fun s hs => (h.shafts s hs).written)
  · exact writtenItems_iff.mpr (List.forall_mem_map.mpr fun c hc => (h.components c hc).written)
  · split
    · simp
    · exact forall_mem_entry.mpr ⟨⟨_, rfl⟩, d.settings.written_entries⟩

/-- The fields of a description as they are read again. -/
def rereadFields (d : Description) : Fields :=
  [("shafts", (Document.list (d.shafts.map ShaftSpan.toDocument)).reread),
    ("components", (Document.list (d.components.map Component.toDocument)).reread)] ++
      if d.settings.isEmpty then []
      else [("settings", (Document.record d.settings.toEntries).reread)]

theorem asFields_rereadFields (h : d.HoldsWords) :
    d.toDocument.reread.asFields parts = some d.rereadFields := by
  have hwritten := h.written
  rw [toDocument] at hwritten ⊢
  rw [asFields_reread hwritten, rereadFields, fieldsOf_append, fieldsOf_append]
  split <;> rfl

theorem withDefault_settings (d : Description) :
    d.rereadFields.withDefault "settings" ⟨none⟩ Settings.ofDocument = some d.settings := by
  rw [Fields.withDefault, Fields.get?_eq, rereadFields]
  split
  next he =>
    have hnone : d.settings = ⟨none⟩ :=
      congrArg Settings.mk (Option.isNone_iff_eq_none.mp he)
    simp [hnone]
  next => simp [Settings.ofDocument_reread]

theorem get?_shafts (d : Description) : d.rereadFields.get? "shafts" =
    some (some (Document.list (d.shafts.map ShaftSpan.toDocument)).reread) := by
  rw [Fields.get?_eq, rereadFields]
  split <;> simp

theorem get?_components (d : Description) : d.rereadFields.get? "components" =
    some (some (Document.list (d.components.map Component.toDocument)).reread) := by
  rw [Fields.get?_eq, rereadFields]
  split <;> simp

theorem ofDocument_reread (h : d.HoldsWords) (depth : Nat) :
    ofDocument depth d.toDocument.reread = some d ↔ ∀ c ∈ d.components,
      (∀ x ∈ c.places, Restored x) ∧ (∀ x ∈ c.part.used, Restored x) ∧
        ∀ x ∈ c.part.bounds, Restored x := by
  have hshafts := asList_reread.mpr fun s hs => ShaftSpan.ofDocument_reread (h.shafts s hs)
  have hcomponents := asList_reread.trans <| forall₂_congr fun c hc =>
    Component.ofDocument_reread (h.components c hc) (depth - outerDepth)
  rw [← hcomponents, ofDocument, asFields_rereadFields h]
  simp only [Option.bind_eq_bind, Option.bind_some, Fields.withDefault_of_get? d.get?_shafts,
    Fields.withDefault_of_get? d.get?_components, hshafts, withDefault_settings]
  obtain ⟨shafts, components, settings⟩ := d
  simp [Option.bind_eq_some_iff]

theorem requireValid_eq_ok_iff {other : Description} :
    requireValid d = .ok other ↔ d.validate = .ok () ∧ d = other := by
  rw [requireValid]
  cases d.validate <;> simp [Except.mapError]

theorem toJson_eq_ok_iff {text : String} :
    d.toJson = .ok text ↔ d.validate = .ok () ∧ text = d.toDocument.toJson := by
  rw [toJson, requireValid]
  cases d.validate with
  | error cause => simp [Except.mapError]
  | ok _ => simp [Except.mapError, eq_comm]

/-- What a saved description is loaded as. -/
theorem ofJson_toJson_eq_ok_iff {other : Description} {text : String} (hwords : d.HoldsWords)
    (h : d.toJson = .ok text) : ofJson text = .ok other ↔
      ofDocument jsonDepth d.toDocument.reread = some other ∧ other.validate = .ok () := by
  obtain ⟨-, rfl⟩ := toJson_eq_ok_iff.mp h
  rw [ofJson, parseJson, ofJson_toJson hwords.written, Option.bind_some]
  cases ofDocument jsonDepth d.toDocument.reread with
  | none => simp
  | some loaded =>
    rw [ok_bind, requireValid_eq_ok_iff, Option.some.injEq, and_comm]
    exact and_congr_right fun he => he ▸ Iff.rfl

/-- What was saved is loaded again if every double comes back. -/
theorem reloads_iff_restored {text : String} (hwords : d.HoldsWords) (h : d.toJson = .ok text) :
    ofJson text = .ok d ↔ ∀ c ∈ d.components,
      (∀ x ∈ c.places, Restored x) ∧ (∀ x ∈ c.part.used, Restored x) ∧
        ∀ x ∈ c.part.bounds, Restored x := by
  rw [ofJson_toJson_eq_ok_iff hwords h, ofDocument_reread hwords]
  exact and_iff_left (toJson_eq_ok_iff.mp h).1

end Description

namespace Component

theorem isFinite_of_requireRatio {label field : String} {x : Float}
    (h : requireRatio label field x = .ok ()) : x.isFinite = true := by
  exact (requireRatio_eq_ok_iff.mp h).1

/-- The doubles that a machine is built with are checked. -/
theorem isFinite_of_checkPart {label : String} {known : Orientations} {p : Part}
    (h : checkPart label known p = .ok ()) : ∀ x ∈ p.used, x.isFinite = true := by
  cases p with
  | integrator input integrand output reversed initial =>
    exact List.forall_mem_singleton.mpr (requireFinite_eq_ok_iff.mp h)
  | multiplier input output factor =>
    cases factor with
    | number x => exact List.forall_mem_singleton.mpr (requireFinite_eq_ok_iff.mp h)
    | formula source => exact List.forall_mem_nil _
  | motor output reversed rotation =>
    cases rotation with
    | some x => exact List.forall_mem_singleton.mpr (requireFinite_eq_ok_iff.mp h)
    | none => exact List.forall_mem_nil _
  | outputTable input output1 output2 initial1 initial2 =>
    rw [checkPart] at h
    split at h
    · cases h
    · obtain ⟨h1, h2⟩ := check_bind_eq_ok_iff.mp h
      exact List.forall_mem_cons.mpr ⟨requireFinite_eq_ok_iff.mp h1,
        List.forall_mem_singleton.mpr (requireFinite_eq_ok_iff.mp h2)⟩
  | gearPair shaft1 shaft2 inputRatio outputRatio =>
    obtain ⟨h1, h2⟩ := check_bind_eq_ok_iff.mp h
    exact List.forall_mem_cons.mpr ⟨isFinite_of_requireRatio h1,
      List.forall_mem_singleton.mpr (isFinite_of_requireRatio h2)⟩
  | _ => exact List.forall_mem_nil _

/-- The doubles that only a drawing needs. -/
def drawn (c : Component) : List Float :=
  c.places ++ c.part.bounds

def doubles (c : Component) : List Float :=
  c.drawn ++ c.part.used

end Component

namespace Description

variable {d : Description}

theorem isFinite_of_validate (h : d.validate = .ok ()) {c : Component} (hc : c ∈ d.components) :
    ∀ x ∈ c.part.used, x.isFinite = true := by
  obtain ⟨known, -, hchecks, -, -⟩ := validate_eq_ok_iff.mp h
  exact Component.isFinite_of_checkPart (Component.check_eq_ok_iff.mp (hchecks c hc)).2

/-- If the text of a finite double stands for that double, a description that was saved is loaded
again exactly if the doubles that only a drawing needs are finite. Those of the machine always
are. -/
theorem reloads_iff {text : String} (hwords : d.HoldsWords)
    (hread : ∀ c ∈ d.components, ∀ x ∈ c.doubles, x.isFinite = true → Restored x)
    (h : d.toJson = .ok text) :
    ofJson text = .ok d ↔ ∀ c ∈ d.components, ∀ x ∈ c.drawn, x.isFinite = true := by
  have hvalid := (toJson_eq_ok_iff.mp h).1
  rw [reloads_iff_restored hwords h]
  refine forall₂_congr fun c hc => ?_
  have hc' := hread c hc
  simp only [Component.doubles, Component.drawn, List.forall_mem_append] at hc' ⊢
  obtain ⟨⟨hplaces, hbounds⟩, hused⟩ := hc'
  constructor
  · rintro ⟨hp, -, hb⟩
    exact ⟨fun x hx => (hp x hx).isFinite, fun x hx => (hb x hx).isFinite⟩
  · rintro ⟨hp, hb⟩
    exact ⟨fun x hx => hplaces x hx (hp x hx),
      fun x hx => hused x hx (isFinite_of_validate hvalid hc x hx),
      fun x hx => hbounds x hx (hb x hx)⟩

/-- A motor and a table that is drawn up to a given place. -/
def plotted (xMax : Float) : Description :=
  ⟨[⟨1, ⟨0, 0⟩, ⟨3, 0⟩⟩, ⟨2, ⟨0, 1⟩, ⟨3, 1⟩⟩],
    [⟨none, none, .motor 1 false (some 0.1)⟩,
      ⟨some 7, some (2.5, -1.0), .functionTable 1 2 "x" (some 0.0) (some xMax) none none⟩], ⟨none⟩⟩

theorem holdsWords_plotted (xMax : Float) : (plotted xMax).HoldsWords := by
  refine ⟨?_, ?_⟩
  · simp only [plotted, List.forall_mem_cons]
    exact ⟨⟨rfl, ⟨rfl, rfl⟩, ⟨rfl, rfl⟩⟩, ⟨rfl, ⟨rfl, rfl⟩, ⟨rfl, rfl⟩⟩, List.forall_mem_nil _⟩
  · simp only [plotted, List.forall_mem_cons]
    refine ⟨⟨by simp, ?_⟩, ⟨by rintro _ ⟨⟩; rfl, ?_⟩, List.forall_mem_nil _⟩ <;>
      simp [Part.HoldsShafts, Part.shaftFields] <;> decide

theorem reloads_plotted : ∃ text, (plotted 10.0).toJson = .ok text ∧
    ofJson text = .ok (plotted 10.0) := by
  have hvalid : (plotted 10.0).validate = .ok () := by decide +kernel
  have hread : ∀ c ∈ (plotted 10.0).components, ∀ x ∈ c.doubles,
      x.isFinite = true → Restored x := by
    decide +kernel
  have hjson := toJson_eq_ok_iff.mpr ⟨hvalid, rfl⟩
  exact ⟨_, hjson, (reloads_iff (holdsWords_plotted 10.0) hread hjson).mpr (by decide +kernel)⟩

/-- A table without an end is valid and can be saved, but what is loaded has lost the end. -/
theorem endless_not_reloaded : ∃ text loaded, (plotted (1.0 / 0.0)).HoldsWords ∧
    (∀ c ∈ (plotted (1.0 / 0.0)).components, ∀ x ∈ c.doubles, x.isFinite = true → Restored x) ∧
    (plotted (1.0 / 0.0)).toJson = .ok text ∧ ofJson text = .ok loaded ∧
    loaded ≠ plotted (1.0 / 0.0) := by
  have hvalid : (plotted (1.0 / 0.0)).validate = .ok () := by decide +kernel
  have hwords := holdsWords_plotted (1.0 / 0.0)
  have hjson := toJson_eq_ok_iff.mpr ⟨hvalid, rfl⟩
  have hload : ((ofDocument jsonDepth (plotted (1.0 / 0.0)).toDocument.reread).any fun loaded =>
      loaded.validate = .ok ()) = true := by
    decide +kernel
  obtain ⟨loaded, he, hloadedValid⟩ := (Option.any_eq_true ..).mp hload
  have hloaded := (ofJson_toJson_eq_ok_iff hwords hjson).mpr ⟨he, of_decide_eq_true hloadedValid⟩
  refine ⟨_, loaded, hwords, by decide +kernel, hjson, hloaded, ?_⟩
  rintro rfl
  have hrestored := (reloads_iff_restored hwords hjson).mp hloaded
  revert hrestored
  decide +kernel

end Description

end DifferentialAnalyzer
