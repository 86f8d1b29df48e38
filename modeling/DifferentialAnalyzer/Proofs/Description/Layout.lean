import DifferentialAnalyzer.Proofs.Description.Redrawn

/-! What a description says of its layout does not reach the machine. -/

namespace DifferentialAnalyzer

open Description (Locates)

/-- The shaft under its new id, maybe in another place, but lying as before. -/
structure ShaftSpan.Moves (f : ShaftKey → ShaftKey) (s s' : ShaftSpan) : Prop where
  key : s'.key = f s.key
  orientation : ∀ o, s.orientation = .ok o → s'.orientation = .ok o

section Spans

variable {f : ShaftKey → ShaftKey} {spans spans' : List ShaftSpan}

theorem ShaftSpan.keys_moves (h : List.Forall₂ (Moves f) spans spans') :
    (spans.map (·.key)).map f = spans'.map (·.key) := by
  rw [List.map_map]
  exact map_eq_of_forall₂ (h.imp fun _ _ hs => hs.key.symm)

theorem Description.Locates.moves (hspans : List.Forall₂ (ShaftSpan.Moves f) spans spans')
    {key : ShaftKey} {id : ShaftId} (h : Locates spans key id) : Locates spans' (f key) id := by
  rw [Locates, ← List.getElem?_map] at *
  rw [← ShaftSpan.keys_moves hspans, List.getElem?_map, h]
  rfl

namespace Orientations

variable {known known' : Orientations}

theorem Of.exists_moves (h : known.Of spans)
    (hspans : List.Forall₂ (ShaftSpan.Moves f) spans spans') :
    ∃ known' : Orientations, known'.Of spans' := by
  induction hspans generalizing known with
  | nil => exact ⟨[], .nil⟩
  | @cons s s' _ _ hs _ ih =>
    obtain ⟨entry, rest, he, hrest, rfl⟩ := List.forall₂_cons_left_iff.mp h
    obtain ⟨known', hknown'⟩ := ih hrest
    exact ⟨(s'.key, entry.2) :: known', .cons ⟨rfl, hs.orientation _ he.2⟩ hknown'⟩

/-- A shaft lies as before when it is asked for under its new id. -/
theorem Of.lookup_moves (h : known.Of spans) (hnodup : (spans.map (·.key)).Nodup)
    (h' : known'.Of spans') (hnodup' : (spans'.map (·.key)).Nodup)
    (hspans : List.Forall₂ (ShaftSpan.Moves f) spans spans') {key : ShaftKey} {o : Orientation}
    (hlookup : known.lookup key = some o) : known'.lookup (f key) = some o := by
  have hkey : key ∈ spans.map (·.key) := h.lookup_isSome_iff.mp (by simp [hlookup])
  obtain ⟨s, hs, rfl⟩ := List.mem_map.mp hkey
  obtain ⟨o₁, hlookup₁, ho₁⟩ := h.lookup_eq hnodup hs
  obtain rfl : o = o₁ := Option.some.inj (hlookup.symm.trans hlookup₁)
  obtain ⟨s', hs', hmoves⟩ := exists_mem_of_forall₂ hspans hs
  obtain ⟨o₂, hlookup₂, ho₂⟩ := h'.lookup_eq hnodup' hs'
  rw [hmoves.orientation o ho₁] at ho₂
  rw [← hmoves.key, hlookup₂, Except.ok.inj ho₂]

end Orientations

end Spans

namespace Component

variable {f : ShaftKey → ShaftKey} {known known' : Orientations} {label label' : String}

theorem requireOrientation_renamed
    (hlookup : ∀ key o, known.lookup key = some o → known'.lookup (f key) = some o)
    {field : String} {key : ShaftKey} {wanted : Orientation}
    (hkey : (known.lookup key).isSome = true)
    (h : requireOrientation label known field key wanted = .ok ()) :
    requireOrientation label' known' field (f key) wanted = .ok () := by
  obtain ⟨o, ho⟩ := Option.isSome_iff_exists.mp hkey
  rw [requireOrientation, ho] at h
  rw [requireOrientation, hlookup key o ho]
  by_cases hfits : o.fits wanted = true
  · exact if_pos hfits
  · simp [hfits] at h

/-- A check looks at what a component is, and at ids only to find out how shafts lie. -/
theorem checkPart_redraws
    (hlookup : ∀ key o, known.lookup key = some o → known'.lookup (f key) = some o)
    {p p' : Part} (hp : p.Redraws f p')
    (hrefs : ∀ ref ∈ p.shaftRefs, (known.lookup ref.2).isSome = true)
    (h : checkPart label known p = .ok ()) : checkPart label' known' p' = .ok () := by
  obtain ⟨xMin, xMax, yMin, yMax, rfl⟩ := hp
  cases p with
  | integrator input integrand output reversed initial =>
    exact requireFinite_eq_ok_iff.mpr (requireFinite_eq_ok_iff.mp h)
  | differential a sum b =>
    have hcount : [a.map f, sum.map f, b.map f].countP Option.isSome =
        [a, sum, b].countP Option.isSome := by
      cases a <;> cases sum <;> cases b <;> rfl
    simp only [checkPart, Part.redrawn, hcount] at h ⊢
    split at h
    · cases h
    next hlt => exact if_neg hlt
  | multiplier input output factor =>
    cases factor with
    | number x => exact requireFinite_eq_ok_iff.mpr (requireFinite_eq_ok_iff.mp h)
    | formula source => rfl
  | functionTable input output formula =>
    simp only [checkPart, Part.redrawn] at h ⊢
    split at h
    · cases h
    next hblank => exact if_neg hblank
  | motor output reversed rotation =>
    cases rotation with
    | none => rfl
    | some x => exact requireFinite_eq_ok_iff.mpr (requireFinite_eq_ok_iff.mp h)
  | outputTable input output1 output2 initial1 initial2 =>
    simp only [checkPart, Part.redrawn, Option.isNone_map] at h ⊢
    split at h
    · cases h
    next hnone =>
      rw [if_neg hnone]
      simpa only [check_bind_eq_ok_iff, requireFinite_eq_ok_iff] using h
  | crossConnect horizontal vertical | gear horizontal vertical =>
    obtain ⟨hh, hv⟩ := check_bind_eq_ok_iff.mp h
    refine check_bind_eq_ok_iff.mpr ⟨requireOrientation_renamed hlookup ?_ hh,
      requireOrientation_renamed hlookup ?_ hv⟩
    · exact hrefs ("horizontal", horizontal) (by simp [Part.shaftRefs, Part.shaftFields])
    · exact hrefs ("vertical", vertical) (by simp [Part.shaftRefs, Part.shaftFields])
  | gearPair shaft1 shaft2 inputRatio outputRatio =>
    simpa only [checkPart, Part.redrawn, check_bind_eq_ok_iff, requireRatio_eq_ok_iff] using h
  | dial input => rfl
  | label note => rfl

theorem check_redraws
    (hlookup : ∀ key o, known.lookup key = some o → known'.lookup (f key) = some o)
    {c c' : Component} (hp : c.part.Redraws f c'.part) (h : c.check known = .ok ()) :
    c'.check known' = .ok () := by
  obtain ⟨hrefs, hpart⟩ := check_eq_ok_iff.mp h
  refine check_eq_ok_iff.mpr ⟨?_, checkPart_redraws hlookup hp hrefs hpart⟩
  obtain ⟨xMin, xMax, yMin, yMax, he⟩ := hp
  rw [he, Part.shaftRefs_redrawn, List.forall_mem_map]
  intro ref href
  obtain ⟨o, ho⟩ := Option.isSome_iff_exists.mp (hrefs ref href)
  rw [hlookup ref.2 o ho]
  rfl

theorem check_of_kind? {c : Component} (h : c.part.kind? = none) : c.check known = .ok () := by
  obtain ⟨id, position, part⟩ := c
  cases part with
  | label note => rfl
  | _ => cases h

theorem countP_isMotor (cs : List Component) :
    cs.countP (·.part.isMotor) = (parts cs).countP Part.isMotor := by
  induction cs with
  | nil => rfl
  | cons c cs ih =>
    cases hc : c.part.kind? with
    | none =>
      have hmotor : c.part.isMotor = false := by
        cases hpart : c.part with
        | motor => simp [hpart, Part.kind?] at hc
        | _ => rfl
      rw [parts_cons_label hc, ← ih, List.countP_cons, hmotor]
      rfl
    | some kind => rw [parts_cons hc, List.countP_cons, List.countP_cons, ih]

end Component

namespace Description

/-- The second description differs from the first one in layout only. Its shafts have new ids by
which the components name them, and may be in other places. Its components have other ids or none,
and other places and bounds. Notes come and go. -/
structure Redraws (f : ShaftKey → ShaftKey) (d d' : Description) : Prop where
  injective : ∀ a ∈ d.shafts.map (·.key), ∀ b ∈ d.shafts.map (·.key), f a = f b → a = b
  spans : List.Forall₂ (ShaftSpan.Moves f) d.shafts d'.shafts
  parts : List.Forall₂ (Part.Redraws f) (Component.parts d.components)
    (Component.parts d'.components)
  ids : (d'.components.filterMap (·.id)).Nodup
  settings : d'.settings = d.settings

section Redraws

variable {f : ShaftKey → ShaftKey} {d d' : Description}

theorem Redraws.nodup_keys (h : d.Redraws f d') (hnodup : (d.shafts.map (·.key)).Nodup) :
    (d'.shafts.map (·.key)).Nodup := by
  rw [← ShaftSpan.keys_moves h.spans]
  exact hnodup.map_on fun a ha b hb => h.injective a ha b hb

theorem Redraws.motorCount_eq (h : d.Redraws f d') : d'.motorCount = d.motorCount := by
  have hmotors : (Component.parts d.components).map Part.isMotor =
      (Component.parts d'.components).map Part.isMotor :=
    map_eq_of_forall₂ (h.parts.imp fun _ _ hp => hp.isMotor.symm)
  rw [motorCount, motorCount, Component.countP_isMotor, Component.countP_isMotor]
  simpa only [List.countP_map, Function.id_comp] using (congrArg (List.countP id) hmotors).symm

theorem Redraws.validate (h : d.Redraws f d') (hvalid : d.validate = .ok ()) :
    d'.validate = .ok () := by
  obtain ⟨known, hknown, hchecks, -, hmotor⟩ := validate_eq_ok_iff.mp hvalid
  obtain ⟨hof, hnodup⟩ := Orientations.ofShafts_eq_ok_iff.mp hknown
  obtain ⟨known', hof'⟩ := hof.exists_moves h.spans
  have hnodup' := h.nodup_keys hnodup
  refine validate_eq_ok_iff.mpr ⟨known', Orientations.ofShafts_eq_ok_iff.mpr ⟨hof', hnodup'⟩,
    fun c' hc' => ?_, h.ids, h.motorCount_eq.trans hmotor⟩
  cases hkind : c'.part.kind? with
  | none => exact Component.check_of_kind? hkind
  | some kind =>
    have hmem : c'.part ∈ Component.parts d'.components :=
      Component.mem_parts_iff.mpr ⟨by simp [hkind], c', hc', rfl⟩
    obtain ⟨p, hp, hredraws⟩ := exists_mem_of_forall₂ h.parts.flip hmem
    obtain ⟨-, c, hc, rfl⟩ := Component.mem_parts_iff.mp hp
    exact Component.check_redraws (fun key o => hof.lookup_moves hnodup hof' hnodup' h.spans)
      hredraws (hchecks c hc)

/-- Its parts are laid for the same devices, on as many shafts. -/
theorem Redraws.exists_assembly (h : d.Redraws f d') {options : BuildOptions} {chain : LetChain}
    (hchain : d.settings.resolve = .ok chain) (hvalid : d.validate = .ok ()) {w : Wiring}
    {described : List Topology.Shaft} {made : List (String × Device)}
    (hw : w.Complete d chain.toBindings options described made) :
    ∃ (w' : Wiring) (all : List Topology.Shaft) (made' : List (String × Device)),
      d'.assembly options = .ok w'.assembly ∧ w'.Laid d'.shafts all made' ∧
      made'.map (·.2) = made.map (·.2) ∧
      all.length = (described ++ d.components.flatMap Component.ownShafts).length := by
  have hvalid' := h.validate hvalid
  obtain ⟨known', w₀, described', hknown', hw₀, hlaid₀, hlies⟩ := exists_addShafts hvalid'
  have hcount : described'.length = d.shafts.length :=
    hlies.length_eq.symm.trans h.spans.length_eq.symm
  have hmade : List.Forall₂ (fun p d => p.1.Makes d'.shafts chain.toBindings options p.2 d)
      (Part.placed d.shafts.length (Component.parts d'.components)) (made.map (·.2)) := by
    refine Part.makes_redraws (fun key id hid => hid.moves h.spans) h.parts ?_
    rw [Component.placed_parts, List.forall₂_map_left_iff, List.forall₂_map_right_iff]
    exact hw.makes.imp fun _ _ hm => hm.2
  rw [Component.placed_parts, List.forall₂_map_left_iff, ← hcount] at hmade
  obtain ⟨w', added, hadd, hlaid, hadded⟩ := hlaid₀.addComponents_of_makes hmade
  refine ⟨w', _, _, ?_, hlaid, hadded, ?_⟩
  · simp only [assembly, hvalid', h.settings, hchain, hknown', hw₀, hadd,
      Except.mapError, ok_bind]
  · have hopen : (Component.parts d.components).map Part.openSlots =
        (Component.parts d'.components).map Part.openSlots :=
      map_eq_of_forall₂ (h.parts.imp fun _ _ hp => hp.openSlots.symm)
    rw [List.length_append, List.length_append, Component.length_ownShafts,
      Component.length_ownShafts, hopen, hcount, hw.spans.length_eq]

/-- Layout does not reach the machine: it is built as well, and whatever is done to it, nothing that
can be seen of it is another. -/
theorem layout_independent (h : d.Redraws f d') {options : BuildOptions} {s : Simulator}
    (hs : d.build options = .ok s) :
    ∃ s', d'.build options = .ok s' ∧ ∀ ops : List Operation,
      (s'.after ops).devices = (s.after ops).devices ∧
      (s'.after ops).shafts = (s.after ops).shafts ∧
      (s'.after ops).tick = (s.after ops).tick ∧
      ∀ op, ((s'.after ops).perform op).2 = ((s.after ops).perform op).2 := by
  obtain ⟨chain, w, described, made, hchain, hvalid, hw, hbuild⟩ := complete_of_build hs
  obtain ⟨w', all, made', hassembly, hlaid, hmade, hsize⟩ := h.exists_assembly hchain hvalid hw
  have hfittings : made'.map (·.2.fitting) = made.map (·.2.fitting) := by
    have hmapped := congrArg (List.map Device.fitting) hmade
    rw [List.map_map, List.map_map] at hmapped
    exact hmapped
  obtain ⟨s', hs', htwin⟩ := Assembly.exists_twin hw.laid.holds (hfittings ▸ hlaid.holds)
    (by rw [hw.laid.size, hlaid.size, hsize])
    (by rw [← Array.toList_inj, hw.laid.devices, hlaid.devices, hmade]) hbuild
  refine ⟨s', ?_, fun ops => ?_⟩
  · rw [build_eq, hassembly, ok_bind, hs']
    rfl
  · have hafter := htwin.after ops
    exact ⟨hafter.devices.symm, hafter.shafts.symm, hafter.tick.symm,
      fun op => (hafter.perform op).2.symm⟩

end Redraws

/-- A machine with a table and an open slot. -/
def arranged : Description :=
  ⟨[⟨1, ⟨0, 0⟩, ⟨4, 0⟩⟩, ⟨2, ⟨1, 2⟩, ⟨5, 2⟩⟩],
    [⟨some 1, some (0.5, 0.0), .motor 1 false none⟩,
      ⟨none, none, .label (some "doubles")⟩,
      ⟨some 2, none, .functionTable 1 2 "rate * x" (some 0.0) (some 1.0) none none⟩,
      ⟨some 3, none, .differential (some 1) none (some 2)⟩],
    ⟨some "rate = 2"⟩⟩

/-- The same machine in another drawing. -/
def rearranged : Description :=
  ⟨[⟨9, ⟨3, 7⟩, ⟨5, 7⟩⟩, ⟨8, ⟨0, 9⟩, ⟨1, 9⟩⟩],
    [⟨none, none, .motor 9 false none⟩,
      ⟨some 1, some (2.0, 8.0), .functionTable 9 8 "rate * x" none (some 4.0) (some 0.5) none⟩,
      ⟨some 7, none, .differential (some 9) none (some 8)⟩,
      ⟨some 2, none, .label none⟩],
    ⟨some "rate = 2"⟩⟩

theorem layout_independent_arranged : arranged.Redraws (10 - ·) rearranged ∧
    ∃ s s' : Simulator, arranged.build .standard = .ok s ∧ rearranged.build .standard = .ok s' ∧
      ∀ ops : List Operation, (s'.after ops).devices = (s.after ops).devices ∧
        (s'.after ops).shafts = (s.after ops).shafts ∧ (s'.after ops).tick = (s.after ops).tick ∧
        ∀ op, ((s'.after ops).perform op).2 = ((s.after ops).perform op).2 := by
  have h : arranged.Redraws (10 - ·) rearranged :=
    { injective := by decide
      spans := .cons ⟨rfl, fun _ ho => ho⟩ (.cons ⟨rfl, fun _ ho => ho⟩ .nil)
      parts := .cons ⟨none, none, none, none, rfl⟩
        (.cons ⟨none, some 4.0, some 0.5, none, rfl⟩ (.cons ⟨none, none, none, none, rfl⟩ .nil))
      ids := by decide
      settings := rfl }
  have hb : (arranged.build .standard).toOption.isSome = true := by
    decide +kernel
  obtain ⟨s, hs⟩ := Option.isSome_iff_exists.mp hb
  have hbuild : arranged.build .standard = .ok s := toOption_eq_some_iff.mp hs
  obtain ⟨s', hbuild', hsame⟩ := layout_independent h hbuild
  exact ⟨h, s, s', hbuild, hbuild', hsame⟩

end Description

end DifferentialAnalyzer
