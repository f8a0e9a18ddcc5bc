-- Extension fields and the layout.  Extension fields that come after all others take no part in the
-- order by size, so the fields before them keep their offsets, and the fingerprint does not see
-- them.
import MavDialect.Message.Carrier
import MavDialect.Proofs.Placement

namespace MavDialect

namespace Layout

/-! ## Fields at the end of a declaration -/

theorem slots_append (fields added : List Field) :
    slots (fields ++ added) = slots fields ++ added.zipIdx fields.length := by
  rw [slots, slots, List.zipIdx_append, Nat.zero_add]

/-- Extension fields at the end of the declaration are at the end of the payload. -/
theorem wireSlots_append (fields : List Field) {added : List Field}
    (h : ∀ f ∈ added, f.isExtension) :
    wireSlots (fields ++ added) = wireSlots fields ++ added.zipIdx fields.length := by
  have hextension : ∀ s ∈ added.zipIdx fields.length, s.1.isExtension := fun s hs =>
    h s.1 (List.fst_mem_of_mem_zipIdx hs)
  have hnoBase : ((added.zipIdx fields.length).filter fun s => !s.1.isExtension) = [] := by
    rw [List.filter_eq_nil_iff]
    intro s hs
    simp [hextension s hs]
  rw [wireSlots, wireSlots, baseSlots, baseSlots, extensionSlots, extensionSlots, slots_append,
    List.filter_append, List.filter_append, hnoBase, List.append_nil,
    List.filter_eq_self.2 hextension, List.append_assoc]

theorem offsetsFrom_append (start : Nat) (l r : List Slot) :
    offsetsFrom start (l ++ r) = offsetsFrom start l ++ offsetsFrom (endFrom start l) r := by
  induction l generalizing start with
  | nil => rfl
  | cons s rest ih =>
    rw [List.cons_append, offsetsFrom, offsetsFrom, ih]
    rfl

/-- Every slot has an offset listed for its place. -/
theorem exists_lookup_of_mem_slots {fields : List Field} {s : Slot} (hs : s ∈ slots fields) :
    ∃ offset, (offsetsFrom 0 (wireSlots fields)).lookup s.2 = some offset := by
  have hplace : s.2 ∈ (offsetsFrom 0 (wireSlots fields)).map (·.1) := by
    rw [map_fst_offsetsFrom]
    exact List.mem_map_of_mem ((wireSlots_perm fields).mem_iff.2 hs)
  obtain ⟨e, he, hplace⟩ := List.mem_map.1 hplace
  have hsome : ((offsetsFrom 0 (wireSlots fields)).lookup s.2).isSome :=
    List.lookup_isSome_iff.2 ⟨e, he, by simp [hplace]⟩
  exact Option.isSome_iff_exists.1 hsome

/-- The fields that are added at the end of a declaration, laid out. -/
def addedFields (fields added : List Field) : List Field :=
  (added.zipIdx fields.length).map (Slot.at (offsetsFrom 0 (wireSlots (fields ++ added))))

theorem isExtension_of_mem_addedFields {fields added : List Field}
    (h : ∀ f ∈ added, f.isExtension) : ∀ f ∈ addedFields fields added, f.isExtension := by
  intro f hf
  obtain ⟨s, hs, rfl⟩ := List.mem_map.1 hf
  exact h s.1 (List.fst_mem_of_mem_zipIdx hs)

theorem totalSize_addedFields (fields added : List Field) :
    (addedFields fields added).map (·.totalSize) = added.map (·.totalSize) := by
  rw [addedFields, List.map_map]
  conv => rhs; rw [← List.zipIdx_map_fst fields.length added, List.map_map]
  rfl

/-- The fields that are there already are laid out as without the added ones. -/
theorem placed_append (fields : List Field) {added : List Field}
    (h : ∀ f ∈ added, f.isExtension) :
    placed (fields ++ added) = placed fields ++ addedFields fields added := by
  rw [placed_eq, placed_eq, slots_append, List.map_append, addedFields]
  congr 1
  apply List.map_congr_left
  intro s hs
  obtain ⟨offset, hoffset⟩ := exists_lookup_of_mem_slots hs
  rw [wireSlots_append fields h, offsetsFrom_append]
  simp only [Slot.at, List.lookup_append, hoffset, Option.some_or]

theorem filter_base_placed_append (fields : List Field) {added : List Field}
    (h : ∀ f ∈ added, f.isExtension) :
    ((placed (fields ++ added)).filter fun f => !f.isExtension) =
      (placed fields).filter fun f => !f.isExtension := by
  have hnone : ((addedFields fields added).filter fun f => !f.isExtension) = [] := by
    rw [List.filter_eq_nil_iff]
    intro f hf
    simp [isExtension_of_mem_addedFields h f hf]
  rw [placed_append fields h, List.filter_append, hnone, List.append_nil]

theorem payloadLength_append (fields added : List Field) :
    payloadLength (fields ++ added) = payloadLength fields + (added.map (·.totalSize)).sum := by
  rw [payloadLength_eq_sum, payloadLength_eq_sum, List.map_append, List.sum_append]

end Layout

namespace Message

/-! ## Messages with other extension fields -/

/-- A peer that knows the old message reads the base fields of the new one: they lie where they
were, the fingerprint is the same, and nothing but the fields and the length has changed. -/
structure Compatible (old new : Message) : Prop where
  fingerprint : new.fingerprint = old.fingerprint
  baseFields : new.baseFields = old.baseFields
  others : new = { old with fields := new.fields, payloadLength := new.payloadLength }

/-- The base fields of a message that is laid out decide its fingerprint. -/
theorem ofFields_eq_of_filter_eq (sourceName : String) {fields others : List Field}
    (h : (fields.filter fun f => !f.isExtension) = others.filter fun f => !f.isExtension) :
    Fingerprint.ofFields sourceName fields = Fingerprint.ofFields sourceName others := by
  rw [Fingerprint.ofFields, Fingerprint.ofFields, Fingerprint.input, Fingerprint.input,
    Layout.wireBaseFields_eq, Layout.wireBaseFields_eq, h]

/-- Messages that differ in the extension fields after `fields` are compatible. -/
theorem compatible_withFields (m : Message) (fields : List Field) {added others : List Field}
    (hadded : ∀ f ∈ added, f.isExtension) (hothers : ∀ f ∈ others, f.isExtension) :
    Compatible (m.withFields (fields ++ added)) (m.withFields (fields ++ others)) := by
  have hbase := (Layout.filter_base_placed_append fields hothers).trans
    (Layout.filter_base_placed_append fields hadded).symm
  have hprint := ofFields_eq_of_filter_eq m.sourceName hbase
  refine ⟨hprint, hbase, ?_⟩
  simp only [withFields, hprint]

/-- The new message has further extension fields of these sizes at the end; all fields before them
are the old ones. -/
structure Grown (old new : Message) (sizes : List Nat) : Prop where
  fields : ∃ added, new.fields = old.fields ++ added ∧ (∀ f ∈ added, f.isExtension) ∧
    added.map (·.totalSize) = sizes
  payloadLength : new.payloadLength = old.payloadLength + sizes.sum

theorem grown_withFields (m : Message) (fields : List Field) {added : List Field}
    (h : ∀ f ∈ added, f.isExtension) :
    Grown (m.withFields fields) (m.withFields (fields ++ added)) (added.map (·.totalSize)) := by
  refine ⟨⟨Layout.addedFields fields added, Layout.placed_append fields h,
    Layout.isExtension_of_mem_addedFields h, Layout.totalSize_addedFields fields added⟩, ?_⟩
  exact Layout.payloadLength_append fields added

/-! ## What is done to a message after its layout -/

theorem Compatible.annotated {old new : Message} (h : Compatible old new)
    (description : List String) (deprecated : Option Deprecation) (workInProgress : Bool) :
    Compatible { old with description, deprecated, workInProgress }
      { new with description, deprecated, workInProgress } := by
  refine ⟨h.fingerprint, h.baseFields, ?_⟩
  conv => lhs; rw [h.others]

theorem Grown.annotated {old new : Message} {sizes : List Nat} (h : Grown old new sizes)
    (description : List String) (deprecated : Option Deprecation) (workInProgress : Bool) :
    Grown { old with description, deprecated, workInProgress }
      { new with description, deprecated, workInProgress } sizes :=
  ⟨h.fields, h.payloadLength⟩

theorem baseFields_mapFieldNames (m : Message) (rename : String → String) :
    (m.mapFieldNames rename).baseFields =
      m.baseFields.map fun f => { f with name := rename f.name } := by
  rw [baseFields, baseFields, mapFieldNames, List.filter_map]
  rfl

/-- Both messages are of one class, so their fields are renamed alike. -/
theorem Compatible.underscoreCarrier {old new : Message} (h : Compatible old new) :
    Compatible old.underscoreCarrier new.underscoreCarrier := by
  have hname : new.name = old.name := by rw [h.others]
  rw [underscoreCarrier_eq, underscoreCarrier_eq, hname]
  refine ⟨h.fingerprint, ?_, ?_⟩
  · rw [baseFields_mapFieldNames, baseFields_mapFieldNames, h.baseFields]
  · rw [mapFieldNames, h.others]
    rfl

theorem Grown.underscoreCarrier {old new : Message} {sizes : List Nat} (h : Grown old new sizes)
    (hname : new.name = old.name) :
    Grown old.underscoreCarrier new.underscoreCarrier sizes := by
  obtain ⟨⟨added, hfields, hextension, hsizes⟩, hlength⟩ := h
  rw [underscoreCarrier_eq, underscoreCarrier_eq, hname]
  refine ⟨⟨added.map fun f => { f with name := carrierFieldName old.name f.name }, ?_, ?_, ?_⟩,
    hlength⟩
  · rw [mapFieldNames, mapFieldNames, hfields, List.map_append]
  · exact List.forall_mem_map.2 hextension
  · rw [List.map_map, ← hsizes]
    rfl

end Message

end MavDialect
