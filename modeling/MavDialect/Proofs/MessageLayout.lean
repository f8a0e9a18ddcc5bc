-- The layout of a message, whatever happened to it.  Its own fields are a fixed point of the
-- layout.  This holds when a message is made, and no later change of its fields or of their names
-- touches it, so every message of every compiled dialect is laid out.
import MavDialect.Proofs.BuiltField
import MavDialect.Proofs.CompileStages
import MavDialect.Proofs.FingerprintScope
import MavDialect.Proofs.Outcome
import MavDialect.Proofs.Placement

namespace MavDialect.Message

open Layout (Tiles placed)

/-! ## How messages come about -/

/-- A message that was made of built fields, and then given other built fields, renamed as a
carrier of commands, or annotated, in any order. -/
inductive Made : Message → Prop
  | ofFields (sourceName name : String) (id : Int) {fields : List Field} :
      (∀ f ∈ fields, f.Built) → Made (Message.ofFields sourceName name id fields)
  | withFields {m : Message} {fields : List Field} :
      Made m → (∀ f ∈ fields, f.Built) → Made (m.withFields fields)
  | underscoreInt {m : Message} : Made m → Made m.underscoreInt
  | underscoreLong {m : Message} : Made m → Made m.underscoreLong
  | underscoreCarrier {m : Message} : Made m → Made m.underscoreCarrier
  | annotated {m : Message} (description : List String) (deprecated : Option Deprecation)
      (workInProgress : Bool) :
      Made m → Made { m with description, deprecated, workInProgress }

/-! ## The invariant -/

/-- Laying the message out anew changes nothing, and its fields are built ones. -/
structure Settled (m : Message) : Prop where
  withFields_fields : m.withFields m.fields = m
  built : ∀ f ∈ m.fields, f.Built

theorem built_of_mem_placed {fields : List Field} (h : ∀ f ∈ fields, f.Built) :
    ∀ f ∈ placed fields, f.Built := by
  intro f hf
  rw [Layout.placed_eq] at hf
  obtain ⟨s, hs, rfl⟩ := List.mem_map.1 hf
  exact (h s.1 (List.fst_mem_of_mem_zipIdx hs)).offset _

theorem settled_withFields (m : Message) {fields : List Field} (h : ∀ f ∈ fields, f.Built) :
    Settled (m.withFields fields) := by
  refine ⟨?_, built_of_mem_placed h⟩
  simp only [withFields, Layout.placed_placed, Layout.payloadLength_placed]

/-- New generated names leave the layout and the fingerprint as they are. -/
theorem withFields_mapFieldNames (m : Message) (rename : String → String) (fields : List Field) :
    (m.mapFieldNames rename).withFields (fields.map fun f => { f with name := rename f.name }) =
      (m.withFields fields).mapFieldNames rename := by
  have hinput : Fingerprint.input m.sourceName
      ((placed fields).map fun f => { f with name := rename f.name }) =
        Fingerprint.input m.sourceName (placed fields) := by
    apply Fingerprint.input_eq_of_sameSignatures
    apply Fingerprint.sameSignatures_of_alike
    exact List.forall₂_map_left_iff.2 (List.forall₂_same.2 fun _ _ => ⟨rfl, rfl, rfl⟩)
  have hlength : Layout.payloadLength (fields.map fun f => { f with name := rename f.name }) =
      Layout.payloadLength fields := by
    rw [Layout.payloadLength_eq_sum, Layout.payloadLength_eq_sum, List.map_map]
    rfl
  simp only [withFields, mapFieldNames, Layout.placed_map_name, hlength, Fingerprint.ofFields,
    hinput]

theorem Settled.mapFieldNames {m : Message} (h : Settled m) (rename : String → String) :
    Settled (m.mapFieldNames rename) := by
  refine ⟨?_, ?_⟩
  · exact (withFields_mapFieldNames m rename m.fields).trans (by rw [h.withFields_fields])
  · intro f hf
    obtain ⟨g, hg, rfl⟩ := List.mem_map.1 hf
    exact (h.built g hg).name _

theorem Settled.annotated {m : Message} (h : Settled m) (description : List String)
    (deprecated : Option Deprecation) (workInProgress : Bool) :
    Settled { m with description, deprecated, workInProgress } := by
  refine ⟨?_, h.built⟩
  conv => rhs; rw [← h.withFields_fields]
  rfl

/-- However a message is made, it settles. -/
theorem Made.settled {m : Message} (h : m.Made) : Settled m := by
  induction h with
  | ofFields _ _ _ hb => exact settled_withFields _ hb
  | withFields _ hb _ => exact settled_withFields _ hb
  | underscoreInt _ ih => exact ih.mapFieldNames _
  | underscoreLong _ ih => exact ih.mapFieldNames _
  | underscoreCarrier _ ih =>
    unfold Message.underscoreCarrier
    split
    · exact ih.mapFieldNames _
    · split
      · exact ih.mapFieldNames _
      · exact ih
  | annotated _ _ _ _ ih => exact ih.annotated _ _ _

/-! ## The layout of a settled message -/

/-- What holds of the stored layout of a message. -/
structure LaidOut (m : Message) : Prop where
  /-- Base fields by descending size of their elements, equal sizes as declared, and then the
  extension fields as declared. -/
  payload_order : m.wireFields =
    m.baseFields.mergeSort (fun f g => g.elementSize ≤ f.elementSize) ++ m.extensionFields
  /-- In that order the fields take the payload without a gap. -/
  tiled : Tiles 0 m.wireFields m.payloadLength
  disjoint : m.fields.Pairwise Field.Apart
  total : m.payloadLength = (m.fields.map (·.totalSize)).sum
  /-- The input of the fingerprint goes through the base fields by ascending offset. -/
  input_ascending : ∃ visited : List Field, visited.Perm m.baseFields ∧
    visited.Pairwise (fun f g => f.offset < g.offset) ∧
    Fingerprint.input m.sourceName m.fields =
      Text.utf8 m.sourceName ++ 32 :: visited.flatMap Fingerprint.fieldBytes
  fingerprint_eq : m.fingerprint = Fingerprint.ofFields m.sourceName m.fields
  withFields_fields : m.withFields m.fields = m

theorem Settled.tiles {m : Message} (h : Settled m) : Tiles 0 m.wireFields m.payloadLength := by
  have hfields : placed m.fields = m.fields := congrArg Message.fields h.withFields_fields
  have hlength : Layout.payloadLength m.fields = m.payloadLength :=
    congrArg Message.payloadLength h.withFields_fields
  have htiles := Layout.tiles_placed fun f hf => (h.built f hf).totalSize_pos
  rwa [hfields, hlength] at htiles

theorem Settled.laidOut {m : Message} (h : Settled m) : LaidOut m where
  payload_order := by
    rw [wireFields, Layout.wireFields_eq, Layout.wireBaseFields_eq,
      Layout.largestFirst_eq_mergeSort]
    rfl
  tiled := h.tiles
  disjoint := by
    have hwire : m.wireFields.Pairwise Field.Apart := h.tiles.pairwise.imp Or.inl
    exact (Layout.wireFields_perm m.fields).pairwise hwire Or.symm
  total := by
    rw [← Layout.payloadLength_eq_sum]
    exact (congrArg Message.payloadLength h.withFields_fields).symm
  input_ascending := by
    have hascending := h.tiles.ascending
    rw [wireFields, Layout.wireFields_eq] at hascending
    exact ⟨Layout.wireBaseFields m.fields, Layout.wireBaseFields_perm m.fields,
      (List.pairwise_append.1 hascending).1, rfl⟩
  fingerprint_eq := by
    have hfields : placed m.fields = m.fields := congrArg Message.fields h.withFields_fields
    have hprint := congrArg Message.fingerprint h.withFields_fields
    simp only [withFields, hfields] at hprint
    exact hprint.symm
  withFields_fields := h.withFields_fields

/-! ## The messages of a dialect -/

theorem built_of_field {options : Options} {message : String} {isExtension : Bool}
    {declared : Declaration.Field} {f : Field}
    (h : Compile.field options message isExtension declared = .ok f) : f.Built := by
  obtain ⟨t, ht, rfl⟩ := Compile.field_eq_ok_iff.1 h
  have hdeclared : Field.declare declared.name declared.typeName =
      .ok (Field.ofType declared.name declared.typeName t) := by rw [Field.declare, ht]; rfl
  have hplain := (((Field.Built.declare _ _ hdeclared).extension isExtension).units
    (declared.units.getD "")).description (Compile.lines options declared.description)
  unfold Compile.assembleField
  cases declared.enumName with
  | none => exact hplain
  | some enum => exact hplain.asEnum _ _

theorem built_of_fields {options : Options} {message : String} {isExtension : Bool}
    {parts : List Declaration.Part} {fields : List Field}
    (h : Compile.fields options message isExtension parts = .ok fields) :
    ∀ f ∈ fields, f.Built := by
  induction parts generalizing isExtension fields with
  | nil =>
    cases h
    simp
  | cons part rest ih =>
    cases part with
    | field declared =>
      obtain ⟨f, hf, h⟩ := Outcome.bind_eq_ok_iff.1 h
      obtain ⟨others, hothers, h⟩ := Outcome.bind_eq_ok_iff.1 h
      cases h
      exact List.forall_mem_cons.2 ⟨built_of_field hf, ih hothers⟩
    | extensions => exact ih h
    | workInProgress => exact ih h
    | description text => exact ih h
    | deprecated d => exact ih h
    | other name => exact ih h

/-- A message that is read from its declaration is made of built fields. -/
theorem made_of_message {options : Options} {declared : Declaration.Message} {m : Message}
    (h : (Compile.message options declared).result = .ok m) : m.Made := by
  rw [Compile.result_message] at h
  obtain ⟨id, _, h⟩ := Outcome.bind_eq_ok_iff.1 h
  obtain ⟨fields, hfields, h⟩ := Outcome.bind_eq_ok_iff.1 h
  cases h
  exact (Made.ofFields _ _ id (built_of_fields hfields)).annotated _ _ _

theorem made_of_compile {options : Options} {name : String} {root : Element} {d : Dialect}
    (h : compile options name root = .ok d) : ∀ m ∈ d.messages, m.Made := by
  rw [Compile.compile_eq] at h
  obtain ⟨declared, _, h⟩ := Outcome.bind_eq_ok_iff.1 h
  obtain ⟨fullEnums, _, h⟩ := Outcome.bind_eq_ok_iff.1 h
  obtain ⟨allMessages, hall, h⟩ := Outcome.bind_eq_ok_iff.1 h
  cases h
  intro m hm
  obtain ⟨full, hfull, rfl⟩ := List.mem_map.1 hm
  obtain ⟨source, _, hsource⟩ := Outcome.exists_of_mem_mapM hall (List.mem_filter.1 hfull).1
  exact (made_of_message hsource).underscoreCarrier

/-- Every message is laid out, however it came about, and so is every message of a compiled
dialect. -/
theorem every_message_is_laid_out :
    (∀ m : Message, m.Made → m.LaidOut) ∧
    ∀ (options : Options) (name : String) (root : Element) (d : Dialect),
      compile options name root = .ok d → ∀ m ∈ d.messages, m.LaidOut :=
  ⟨fun _ h => h.settled.laidOut,
    fun _ _ _ _ h m hm => (made_of_compile h m hm).settled.laidOut⟩

/-- The plain carrier of commands, with fields of four sizes and an extension. -/
def carrierDefinition : Element :=
  let field (name type : String) := Element.ofParts "field" [("name", name), ("type", type)] []
  .ofParts "mavlink" []
    [.ofParts "messages" []
      [.ofParts "message" [("id", "76"), ("name", "COMMAND_LONG")]
        [field "target" "uint8_t", field "mode" "uint16_t[3]", field "param1" "float",
          .ofParts "extensions" [] [], field "note" "char[4]", field "time" "uint64_t"]]]

theorem a_carrier_and_a_changed_message_are_laid_out :
    (∃ d, compile {} "sample" carrierDefinition = .ok d ∧
      (d.messages.map fun m => m.fields.map fun f => (f.name, f.offset)) =
        [[("target", 10), ("mode", 4), ("_param1", 0), ("note", 11), ("time", 15)]] ∧
      ∀ m ∈ d.messages, m.LaidOut) ∧
    ∃ m : Message, m.Made ∧ m.fields.map (·.offset) = [8, 0, 9] ∧ m.LaidOut := by
  have hold : ∀ f ∈ [Field.scalar "seq" .uint32], f.Built :=
    List.forall_mem_singleton.2 (Field.built_scalar _ _)
  have hnew : ∀ f ∈ [Field.scalar "kind" .uint8, Field.scalar "time" .uint64,
      { Field.scalar "param1" .float with isExtension := true, offset := 3 }], f.Built := by
    refine List.forall_mem_cons.2 ⟨Field.built_scalar _ _, List.forall_mem_cons.2
      ⟨Field.built_scalar _ _, List.forall_mem_singleton.2 ?_⟩⟩
    exact ((Field.built_scalar "param1" .float).extension true).offset 3
  have hmade := ((Made.ofFields "PING" "CommandLong" 4 hold).withFields hnew).underscoreCarrier
  obtain ⟨made, compiled⟩ := every_message_is_laid_out
  exact ⟨⟨_, rfl, rfl, compiled {} "sample" carrierDefinition _ rfl⟩, _, hmade, rfl, made _ hmade⟩

end MavDialect.Message
