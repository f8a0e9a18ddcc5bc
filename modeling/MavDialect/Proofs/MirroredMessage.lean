-- A compiled message mirrors its element.  Each child that declares a field yields one field, in
-- the order of the document, with the facts of its declared type; whether it is an extension is
-- decided by the marks before it.  Layout and renaming change only offsets and generated names.
import MavDialect.Proofs.WireCompatibility

namespace MavDialect

open Faults Outcome

/-! ## The mirror image of a field -/

/-- What marks the generated type of an array. -/
def Field.brackets (f : Field) : String := if f.isArray then "[]" else ""

/-- The field is what the element declares.  `rename` is what its message does to the generated
names of its fields. -/
structure MirrorsField (options : Options) (rename : String → String) (e : Element) (f : Field) :
    Prop where
  sourceName : e.attribute? "name" = some f.sourceName
  name : f.name = rename (Naming.camel f.sourceName)
  declaredType : e.attribute? "type" = some f.declaredType
  /-- The declared type can be read, and its facts are those of the field. -/
  hasType : ∃ t, FieldType.parse f.declaredType = .ok t ∧ f.HasType t
  totalSize : f.totalSize = f.elementSize * max (f.arrayLength.getD 1) 1
  totalSize_bounds : 1 ≤ f.totalSize ∧ f.totalSize ≤ 2040
  enumSourceName : f.enumSourceName = e.attribute? "enum"
  enumName : f.enumName = (e.attribute? "enum").map Naming.className
  /-- An enum decides the generated type, also that of characters. -/
  enumType : ∀ enum, f.enumName = some enum → f.fieldType = enum ++ f.brackets
  textType : f.enumName = none → f.isText → f.fieldType = "string"
  plainType : f.enumName = none → ¬ f.isText → f.fieldType = f.elementType.name ++ f.brackets
  units : f.units = (e.attribute? "units").getD ""
  description : f.description = Compile.lines options e.text

/-- An array takes at most 255 elements of at most 8 bytes. -/
theorem FieldType.totalSize_le (t : FieldType) : t.totalSize ≤ 2040 := by
  have hlength : max (t.length.getD 1) 1 ≤ 255 := by
    cases hl : t.length with
    | none => simp
    | some n =>
      have hn : n ≤ 255 := t.length_le n hl
      rw [Option.getD_some]
      omega
  calc t.totalSize = t.element.size * max (t.length.getD 1) 1 := rfl
    _ ≤ 8 * 255 := Nat.mul_le_mul t.element.size_le hlength

theorem Field.append_brackets (f : Field) (name : String) :
    name ++ f.brackets = if f.isArray then name ++ "[]" else name := by
  unfold Field.brackets
  split
  · rfl
  · exact String.append_empty

/-- A mirrored field may be moved by a layout and renamed by its message. -/
theorem MirrorsField.settled {options : Options} {e : Element} {f : Field}
    (h : MirrorsField options id e f) (rename : String → String) (offset : Nat) :
    MirrorsField options rename e { f with offset, name := rename f.name } :=
  { h with
    name := congrArg rename h.name
    hasType := h.hasType.imp fun _ ⟨ht, hf⟩ =>
      ⟨ht, hf.elementType, hf.elementSize, hf.arrayLength, hf.totalSize⟩ }

namespace Compile

/-- What an element declares, put together, mirrors it. -/
theorem mirrors_assembleField {options : Options} {e : Element} {declared : Declaration.Field}
    {t : FieldType} (he : Declaration.Field.ofElement e = .ok declared)
    (ht : FieldType.parse declared.typeName = .ok t) (isExtension : Bool) :
    MirrorsField options id e (assembleField options isExtension declared t) := by
  obtain ⟨name, hname, he⟩ := bind_eq_ok_iff.1 he
  obtain ⟨typeName, htype, he⟩ := bind_eq_ok_iff.1 he
  cases he
  have hname := Declaration.require_eq_ok hname
  have htype := Declaration.require_eq_ok htype
  have hbounds : 1 ≤ t.totalSize ∧ t.totalSize ≤ 2040 := ⟨t.totalSize_pos, t.totalSize_le⟩
  unfold assembleField
  cases henum : e.attribute? "enum" with
  | none =>
    refine ⟨hname, rfl, htype, ⟨t, ht, rfl, rfl, rfl, rfl⟩, rfl, hbounds, henum.symm,
      ?_, ?_, ?_, ?_, rfl, rfl⟩
    · rw [henum]
      rfl
    · intro enum h
      cases h
    · intro _ htext
      exact if_pos htext
    · intro _ htext
      rw [Field.append_brackets]
      exact if_neg htext
  | some enum =>
    refine ⟨hname, rfl, htype, ⟨t, ht, rfl, rfl, rfl, rfl⟩, rfl, hbounds, henum.symm,
      ?_, ?_, ?_, ?_, rfl, rfl⟩
    · rw [henum]
      rfl
    · intro found h
      cases h
      rw [Field.append_brackets]
      rfl
    · intro h
      cases h
    · intro h
      cases h

/-! ## The fields of one message -/

/-- When nothing follows the items with `p` but their like, they stand at the end. -/
theorem filter_append_of_pairwise {α : Type} {p : α → Bool} {l : List α}
    (h : l.Pairwise fun a b => p a → p b) : l = (l.filter fun a => !p a) ++ l.filter p := by
  induction l with
  | nil => rfl
  | cons a rest ih =>
    obtain ⟨ha, hrest⟩ := List.pairwise_cons.1 h
    cases hp : p a with
    | false =>
      rw [List.filter_cons_of_pos (by simp [hp]), List.filter_cons_of_neg (by simp [hp]),
        List.cons_append, ← ih hrest]
    | true =>
      have hall : ∀ b ∈ rest, p b := fun b hb => ha b hb hp
      rw [List.filter_cons_of_neg (by simp [hp]), List.filter_cons_of_pos hp,
        List.filter_eq_self.2 hall, List.filter_eq_nil_iff.2 (by simpa using hall), List.nil_append]

/-- The children of a message that declare a field. -/
def fieldElements (children : List Element) : List Element :=
  children.filter (·.name == "field")

/-- Each child that declares a field yields one, in the order of the document. -/
theorem mirrors_of_fields {options : Options} {message : String} {isExtension : Bool}
    {children : List Element} {parts : List Declaration.Part} {fs : List Field}
    (hparts : children.mapM Declaration.Part.ofElement = .ok parts)
    (h : fields options message isExtension parts = .ok fs) :
    List.Forall₂ (MirrorsField options id) (fieldElements children) fs := by
  induction children generalizing isExtension parts fs with
  | nil =>
    cases hparts
    cases h
    exact .nil
  | cons e rest ih =>
    obtain ⟨part, partsAfter, hpart, hrest, rfl⟩ := mapM_cons_eq_ok_iff.1 hparts
    unfold fieldElements
    rcases Declaration.part_cases hpart with ⟨hname, declared, hdeclared, rfl⟩ | ⟨hname, rfl⟩ |
      ⟨hname, rfl⟩ | ⟨hname, hother⟩
    · obtain ⟨f, hf, h⟩ := bind_eq_ok_iff.1 h
      obtain ⟨others, hothers, h⟩ := bind_eq_ok_iff.1 h
      cases h
      obtain ⟨t, ht, rfl⟩ := field_eq_ok_iff.1 hf
      rw [List.filter_cons_of_pos (by simp [hname])]
      exact .cons (mirrors_assembleField hdeclared ht isExtension) (ih hrest hothers)
    · rw [List.filter_cons_of_neg (by simp [hname])]
      exact ih hrest h
    · rw [List.filter_cons_of_neg (by simp [hname])]
      exact ih hrest h
    · rw [List.filter_cons_of_neg (by simp at hname; simp [hname])]
      rcases hother with ⟨_, rfl⟩ | ⟨_, rfl⟩ | ⟨_, rfl⟩ <;> exact ih hrest h

/-- A field is an extension when a mark stands before it, or stood before all parts. -/
theorem isExtension_of_fields {options : Options} {message : String} {isExtension : Bool}
    {before after : List Element} {child : Element} {parts : List Declaration.Part}
    {fs : List Field} (hchild : child.name = "field")
    (hparts : (before ++ child :: after).mapM Declaration.Part.ofElement = .ok parts)
    (h : fields options message isExtension parts = .ok fs) :
    ∃ f, fs[(fieldElements before).length]? = some f ∧
      f.isExtension = (isExtension || before.any (·.name == "extensions")) := by
  obtain ⟨partsBefore, part, partsAfter, hbefore, hpart, hafter, rfl⟩ :=
    mapM_middle_eq_ok_iff.1 hparts
  obtain ⟨base, others, hbase, hothers, rfl⟩ := fields_append_eq_ok_iff.1 h
  have hmarks := Declaration.contains_of_parts
    (fun _ _ h => (Declaration.marks_of_part h).1) hbefore
  have hlength : (fieldElements before).length = base.length :=
    (mirrors_of_fields hbefore hbase).length_eq
  rw [hmarks] at hothers
  obtain ⟨declared, rfl⟩ : ∃ declared, part = .field declared := by
    rcases Declaration.part_cases hpart with ⟨_, declared, _, rfl⟩ | ⟨hname, _⟩ | ⟨hname, _⟩ |
      ⟨hname, _⟩
    · exact ⟨declared, rfl⟩
    all_goals simp [hchild] at hname
  obtain ⟨f, hf, hothers⟩ := bind_eq_ok_iff.1 hothers
  obtain ⟨later, _, hothers⟩ := bind_eq_ok_iff.1 hothers
  cases hothers
  refine ⟨f, ?_, (facts_of_field hf).1⟩
  rw [hlength, List.getElem?_append_right (Nat.le_refl _), Nat.sub_self]
  rfl

/-- After an extension there are extensions only. -/
theorem pairwise_of_fields {options : Options} {message : String} {isExtension : Bool}
    {parts : List Declaration.Part} {fs : List Field}
    (h : fields options message isExtension parts = .ok fs) :
    fs.Pairwise fun f g => f.isExtension → g.isExtension := by
  have hmarked {fs : List Field} (h : ∀ f ∈ fs, f.isExtension) :
      fs.Pairwise fun f g => f.isExtension → g.isExtension :=
    List.pairwise_of_forall_mem_list fun _ _ g hg _ => h g hg
  induction parts generalizing isExtension fs with
  | nil =>
    cases h
    exact .nil
  | cons part rest ih =>
    cases part with
    | field declared =>
      cases isExtension with
      | true => exact hmarked (isExtension_of_fields_after_mark h)
      | false =>
        obtain ⟨f, hf, h⟩ := bind_eq_ok_iff.1 h
        obtain ⟨others, hothers, h⟩ := bind_eq_ok_iff.1 h
        cases h
        have hbase : f.isExtension = false := (facts_of_field hf).1
        exact .cons (fun _ _ hext => by simp [hbase] at hext) (ih hothers)
    | extensions => exact hmarked (isExtension_of_fields_after_mark h)
    | workInProgress => exact ih h
    | description text => exact ih h
    | deprecated d => exact ih h
    | other name => exact ih h

/-! ## A message of a dialect -/

/-- The message is what the element declares. -/
structure Mirrors (options : Options) (e : Element) (m : Message) : Prop where
  sourceName : e.attribute? "name" = some m.sourceName
  name : m.name = Naming.className m.sourceName
  /-- The fields are those of the children that declare one, in the order of the document. -/
  fields : List.Forall₂ (MirrorsField options (Message.carrierFieldName m.name))
    (fieldElements e.children) m.fields
  /-- A field is an extension exactly when a mark stands somewhere before it. -/
  extensions : ∀ before child after, e.children = before ++ child :: after →
    child.name = "field" → ∃ f, m.fields[(fieldElements before).length]? = some f ∧
      (f.isExtension ↔ ∃ mark ∈ before, mark.name = "extensions")
  base_first : m.fields = m.baseFields ++ m.extensionFields

/-- The layout moves the fields of a message, and then the message renames them. -/
theorem fields_underscoreCarrier (options : Options) (declared : Declaration.Message) (id : Int)
    (fs : List Field) :
    ∃ offset : Layout.Slot → Nat,
      (assembleMessage options declared id fs).underscoreCarrier.fields =
        (Layout.slots fs).map fun s => { s.1 with
          offset := offset s
          name := Message.carrierFieldName (Naming.className declared.name) s.1.name } := by
  refine ⟨fun s => (Layout.Slot.at (Layout.offsetsFrom 0 (Layout.wireSlots fs)) s).offset, ?_⟩
  rw [Message.underscoreCarrier_eq]
  exact List.map_map

theorem mirrors_of_messageOf {options : Options} {e : Element} {m : Message}
    (h : messageOf options e = .ok m) : Mirrors options e m.underscoreCarrier := by
  obtain ⟨declared, id, fs, hparts, _, hname, _, hfields, rfl⟩ := messageOf_eq_ok_iff.1 h
  obtain ⟨offset, hsettled⟩ := fields_underscoreCarrier options declared id fs
  have hclass : (assembleMessage options declared id fs).underscoreCarrier.name =
      Naming.className declared.name := by
    rw [Message.underscoreCarrier_eq]
    rfl
  have hsource : (assembleMessage options declared id fs).underscoreCarrier.sourceName =
      declared.name := by
    rw [Message.underscoreCarrier_eq]
    rfl
  refine ⟨?_, ?_, ?_, ?_, ?_⟩
  · rw [hname, hsource]
  · rw [hclass, hsource]
  · have hmirrors := mirrors_of_fields hparts hfields
    rw [← Layout.map_fst_slots fs, List.forall₂_map_right_iff] at hmirrors
    rw [hsettled, hclass, List.forall₂_map_right_iff]
    exact hmirrors.imp fun e s hs => hs.settled _ _
  · intro before child after hchildren hchild
    rw [hchildren] at hparts
    obtain ⟨f, hf, hext⟩ := isExtension_of_fields hchild hparts hfields
    rw [← Layout.map_fst_slots fs, List.getElem?_map] at hf
    obtain ⟨s, hs, rfl⟩ := Option.map_eq_some_iff.1 hf
    refine ⟨_, by rw [hsettled, List.getElem?_map, hs]; rfl, ?_⟩
    show s.1.isExtension ↔ _
    rw [hext]
    simp
  · have hpairs := pairwise_of_fields hfields
    rw [← Layout.map_fst_slots fs, List.pairwise_map] at hpairs
    rw [Message.baseFields, Message.extensionFields, hsettled]
    exact filter_append_of_pairwise (List.pairwise_map.2 hpairs)

/-! ## Further marks -/

/-- A mark adds nothing to what the other parts say of the message itself. -/
theorem assembleMessage_mark (options : Options) (declared : Declaration.Message)
    (before after : List Declaration.Part) (id : Int) (fs : List Field) :
    assembleMessage options { declared with parts := before ++ .extensions :: after } id fs =
      assembleMessage options { declared with parts := before ++ after } id fs := by
  simp [assembleMessage, partsDescription, partsDeprecation, Declaration.Message.isWorkInProgress]

/-- After a mark another one says nothing new. -/
theorem fields_further_mark {options : Options} {message : String} {isExtension : Bool}
    {before after : List Declaration.Part} {fs : List Field}
    (hbefore : before.contains .extensions) :
    fields options message isExtension (before ++ .extensions :: after) = .ok fs ↔
      fields options message isExtension (before ++ after) = .ok fs := by
  rw [fields_mark_eq_ok_iff, fields_append_eq_ok_iff, hbefore, Bool.or_true]

section FurtherMark

variable {options : Options} {e : Element} {before after : List Element} {mark : Element}

/-- A message with a mark is read alike with another mark behind the first. -/
theorem messageOf_further_mark (hmark : mark.name = "extensions")
    (hbefore : ∃ c ∈ before, c.name = "extensions") (hchildren : e.children = before ++ after)
    (m : Message) :
    messageOf options { e with children := before ++ mark :: after } = .ok m ↔
      messageOf options e = .ok m := by
  have hpart := Declaration.part_extensions hmark
  have hcontains {parts : List Declaration.Part}
      (h : before.mapM Declaration.Part.ofElement = .ok parts) : parts.contains .extensions := by
    rw [Declaration.contains_of_parts (fun _ _ h => (Declaration.marks_of_part h).1) h]
    simpa using hbefore
  rw [messageOf_eq_ok_iff, messageOf_eq_ok_iff, hchildren]
  constructor
  · rintro ⟨declared, id, fs, hparts, hid, hname, hnumber, hfields, rfl⟩
    obtain ⟨partsBefore, part, partsAfter, hpartsBefore, hfound, hafter, hjoin⟩ :=
      mapM_middle_eq_ok_iff.1 hparts
    cases hpart.symm.trans hfound
    refine ⟨{ declared with parts := partsBefore ++ partsAfter }, id, fs,
      mapM_append_eq_ok_iff.2 ⟨_, _, hpartsBefore, hafter, rfl⟩, hid, hname, hnumber, ?_, ?_⟩
    · rw [← hjoin] at hfields
      exact (fields_further_mark (hcontains hpartsBefore)).1 hfields
    · rw [← assembleMessage_mark, hjoin]
  · rintro ⟨declared, id, fs, hparts, hid, hname, hnumber, hfields, rfl⟩
    obtain ⟨partsBefore, partsAfter, hpartsBefore, hafter, hjoin⟩ := mapM_append_eq_ok_iff.1 hparts
    refine ⟨{ declared with parts := partsBefore ++ .extensions :: partsAfter }, id, fs,
      mapM_middle_eq_ok_iff.2 ⟨_, _, _, hpartsBefore, hpart, hafter, rfl⟩, hid, hname, hnumber,
      ?_, ?_⟩
    · rw [← hjoin] at hfields
      exact (fields_further_mark (hcontains hpartsBefore)).2 hfields
    · rw [assembleMessage_mark, hjoin]

/-- A mark is never at fault. -/
theorem faults_mark (hmark : mark.name = "extensions") (hchildren : e.children = before ++ after) :
    messageMissing { e with children := before ++ mark :: after } = messageMissing e ∧
      messageFaults { e with children := before ++ mark :: after } = messageFaults e := by
  have hfields : { e with children := before ++ mark :: after }.childrenWith "field" =
      e.childrenWith "field" := by
    simp [Element.childrenWith, hchildren, hmark]
  constructor
  · rw [messageMissing, messageMissing, hfields]
    rfl
  · rw [messageFaults, messageFaults, hfields]
    rfl

end FurtherMark

/-- Messages with the same faults leave a definition with the same faults. -/
theorem all_fill_congr (gap : MessageGap) {m other : Element} (hm : m.name = "message")
    (hother : other.name = "message") (hmissing : messageMissing m = messageMissing other)
    (hfaults : messageFaults m = messageFaults other) :
    all (gap.fill m) = all (gap.fill other) := by
  have hsection : sectionMissing { gap.holder with
        children := gap.messagesBefore ++ m :: gap.messagesAfter } =
      sectionMissing { gap.holder with
        children := gap.messagesBefore ++ other :: gap.messagesAfter } := by
    simp [sectionMissing, Element.childrenWith, gap.holder_name, hm, hother, hmissing]
  have hsections : (gap.fill m).children.flatMap sectionMissing =
      (gap.fill other).children.flatMap sectionMissing := by
    rw [MessageGap.fill, MessageGap.fill, List.flatMap_append, List.flatMap_append,
      List.flatMap_cons, List.flatMap_cons, hsection]
  have henums : enumElements (gap.fill m) = enumElements (gap.fill other) := by
    rw [enumElements, enumElements, (gap.alike_fill other m).childrenWith _ (by decide)]
  rw [all, all, hsections, henums, gap.messageElements_fill hm, gap.messageElements_fill hother,
    List.flatMap_append, List.flatMap_append, List.flatMap_cons, List.flatMap_cons, hfaults]
  rfl

/-- Messages that yield the same leave a definition that yields the same. -/
theorem compile_fill_eq_ok {options : Options} {name : String} {gap : MessageGap}
    {m other : Element} {d : MavDialect.Dialect}
    (h : compile options name (gap.fill m) = .ok d)
    (hsame : ∀ x, messageOf options m = .ok x → messageOf options other = .ok x)
    (hm : m.name = "message") (hother : other.name = "message") :
    compile options name (gap.fill other) = .ok d := by
  obtain ⟨_, _, _, _, hmessages, rfl⟩ := compile_eq_ok_iff.1 h
  have hread := hmessages
  rw [gap.messageElements_fill hm] at hread
  obtain ⟨messagesBefore, x, messagesAfter, hbefore, hx, hafter, rfl⟩ :=
    mapM_middle_eq_ok_iff.1 hread
  refine (gap.alike_fill m other).compile_eq_ok h ?_
  rw [gap.messageElements_fill hother]
  exact mapM_middle_eq_ok_iff.2 ⟨_, _, _, hbefore, hsame x hx, hafter, rfl⟩

/-- A message that has a mark keeps all it is when another mark is put in after it: the definition
yields the same, or ends in the same error. -/
theorem compile_further_mark (options : Options) (name : String) (gap : MessageGap) {e : Element}
    {before after : List Element} {mark : Element} (he : e.name = "message")
    (hmark : mark.name = "extensions") (hbefore : ∃ c ∈ before, c.name = "extensions")
    (hchildren : e.children = before ++ after) :
    compile options name (gap.fill { e with children := before ++ mark :: after }) =
      compile options name (gap.fill e) := by
  obtain ⟨hmissing, hfaults⟩ := faults_mark hmark hchildren
  have hall : all (gap.fill { e with children := before ++ mark :: after }) = all (gap.fill e) :=
    all_fill_congr gap he he hmissing hfaults
  have hfails :=
    fails_compile options name (gap.fill { e with children := before ++ mark :: after })
  rw [hall] at hfails
  exact hfails.eq_of_ok (fails_compile options name (gap.fill e)) fun _ h =>
    compile_fill_eq_ok h (fun x => (messageOf_further_mark hmark hbefore hchildren x).1) he he

/-! ## All messages -/

theorem mirrors_of_compile {options : Options} {name : String} {root : Element}
    {d : MavDialect.Dialect} (h : compile options name root = .ok d) :
    List.Forall₂ (Mirrors options) (finishedElements root) d.messages := by
  obtain ⟨_, _, _, _, hmessages, rfl⟩ := compile_eq_ok_iff.1 h
  refine List.forall₂_map_right_iff.2 ?_
  exact (mapM_eq_ok_iff_forall₂.1 (finished_of_walk hmessages)).imp fun _ _ => mirrors_of_messageOf

/-- Each message that is kept mirrors its element, in the order of the document, and marks after the
first one change nothing. -/
theorem every_message_mirrors_its_element (options : Options) (name : String) :
    (∀ root d, compile options name root = .ok d →
      List.Forall₂ (Mirrors options) (finishedElements root) d.messages) ∧
    ∀ (gap : MessageGap) (e mark : Element) (before after : List Element), e.name = "message" →
      mark.name = "extensions" → (∃ c ∈ before, c.name = "extensions") →
      e.children = before ++ after →
      compile options name (gap.fill { e with children := before ++ mark :: after }) =
        compile options name (gap.fill e) := by
  constructor
  · exact fun root d h => mirrors_of_compile h
  · intro gap e mark before after he hmark hbefore hchildren
    exact compile_further_mark options name gap he hmark hbefore hchildren

/-- A message with enums, characters and arrays, before and after its mark. -/
def modeElement (marks : List Element) : Element :=
  .ofParts "message" [("id", "11"), ("name", "SET_MODE")]
    ([declaredField "target" "uint8_t", .ofParts "note" [] [],
        .ofParts "field" [("name", "base_mode"), ("type", "char[4]"), ("enum", "MAV_MODE")] [],
        declaredField "label" "char[10]", .ofParts "extensions" [] [],
        .ofParts "field" [("name", "custom"), ("type", "uint32_t"), ("enum", "MAV_MODE")] []] ++
      marks ++ [.ofParts "description" [] [], declaredField "times" "uint64_t[2]"])

theorem a_message_with_two_marks_is_mirrored :
    let root := sampleGap.fill (modeElement [.ofParts "extensions" [] []])
    ∃ d m, compile {} "sample" root = .ok d ∧ d.messages[1]? = some m ∧
      List.Forall₂ (Mirrors {}) (finishedElements root) d.messages ∧
      m.fields.map (fun f => (f.name, f.fieldType, f.totalSize, f.isExtension)) =
        [("target", "uint8_t", 1, false), ("baseMode", "MavMode[]", 4, false),
          ("label", "string", 10, false), ("custom", "MavMode", 4, true),
          ("times", "uint64_t[]", 16, true)] ∧
      compile {} "sample" (sampleGap.fill (modeElement [])) = .ok d := by
  intro root
  have hcompile : compile {} "sample" root = .ok _ := rfl
  obtain ⟨hmirrors, hmark⟩ := every_message_mirrors_its_element {} "sample"
  refine ⟨_, _, hcompile, rfl, hmirrors root _ hcompile, by decide +kernel, ?_⟩
  have hbefore : ∃ c ∈ (modeElement []).children.take 6, c.name = "extensions" :=
    ⟨.ofParts "extensions" [] [], by simp [modeElement, Element.ofParts], rfl⟩
  exact (hmark sampleGap (modeElement []) (.ofParts "extensions" [] [])
    ((modeElement []).children.take 6) ((modeElement []).children.drop 6) rfl rfl hbefore
    rfl).symm.trans hcompile

end Compile

end MavDialect
