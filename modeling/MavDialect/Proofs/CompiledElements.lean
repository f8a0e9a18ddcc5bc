-- An accepted definition, element by element.  The stages of a compilation walk over all enums and
-- all messages, but what they yield is what each enum and each message yields by itself.  So a
-- compilation that ends well is known from these, and from what the definition says of itself.
import MavDialect.Proofs.Acceptance

namespace MavDialect

open Faults Outcome

namespace Declaration

/-- What a definition says of itself, without its enums and messages. -/
def header (root : Element) : Dialect where
  includes := (root.childrenWith "include").filterMap trimmedText
  version := (root.childrenWith "version").getLast?.bind trimmedText
  dialect := (root.childrenWith "dialect").getLast?.bind trimmedText
  enums := []
  messages := []

/-- A definition is its header and its elements, when it is read. -/
theorem eq_header_of_ofElement {root : Element} {d : Dialect} (h : Dialect.ofElement root = .ok d) :
    root.name = "mavlink" ∧ { header root with enums := d.enums, messages := d.messages } = d := by
  unfold Dialect.ofElement at h
  split at h
  · obtain ⟨definitions, _, h⟩ := bind_eq_ok_iff.1 h
    cases h
    exact ⟨‹_›, rfl⟩
  · cases h

theorem ofElement_eq_ok_iff {root : Element} {d : Dialect} :
    Dialect.ofElement root = .ok d ↔
      root.name = "mavlink" ∧ (enumElements root).mapM Enum.ofElement = .ok d.enums ∧
        (messageElements root).mapM Message.ofElement = .ok d.messages ∧
          { header root with enums := d.enums, messages := d.messages } = d := by
  constructor
  · intro h
    obtain ⟨hroot, hheader⟩ := eq_header_of_ofElement h
    exact ⟨hroot, enums_of_dialect h, messages_of_dialect h, hheader⟩
  · rintro ⟨hroot, henums, hmessages, hheader⟩
    -- each element can be read, so nothing is missing anywhere
    have hnoEnum := (fails_mapM fun e _ => fails_enum e).ok_iff.1 ⟨_, henums⟩
    have hnoMessage := (fails_mapM fun m _ => fails_message m).ok_iff.1 ⟨_, hmessages⟩
    have hnone : rootFaults root ++ root.children.flatMap sectionMissing = [] := by
      rw [List.append_eq_nil_iff, rootFaults_eq_nil_iff, sectionsMissing_eq_nil_iff]
      exact ⟨hroot, hnoEnum, hnoMessage⟩
    obtain ⟨found, hfound⟩ := (fails_dialect root).ok_iff.2 hnone
    have hsameEnums := (enums_of_dialect hfound).symm.trans henums
    have hsameMessages := (messages_of_dialect hfound).symm.trans hmessages
    obtain ⟨_, hfoundHeader⟩ := eq_header_of_ofElement hfound
    rw [Except.ok.inj hsameEnums, Except.ok.inj hsameMessages, hheader] at hfoundHeader
    rw [hfound, hfoundHeader]

end Declaration

namespace Compile

/-- The enum that an element declares, its values under their full names. -/
def enumOf (options : Options) (e : Element) : Except CompileError Enumeration := do
  let declared ← Declaration.Enum.ofElement e
  (enumeration options declared).result

/-- The message that an element declares, with its own names for its fields. -/
def messageOf (options : Options) (e : Element) : Except CompileError Message := do
  let declared ← Declaration.Message.ofElement e
  (message options declared).result

/-- The element has a child that marks it as work in progress. -/
def isUnfinished (e : Element) : Bool := e.children.any (·.name == "wip")

/-- The messages of all sections that are no work in progress. -/
def finishedElements (root : Element) : List Element :=
  (messageElements root).filter fun e => !isUnfinished e

/-- A compilation ends well when each enum and each message yields something by itself, and it
yields these together. -/
theorem compile_eq_ok_iff {options : Options} {name : String} {root : Element}
    {d : MavDialect.Dialect} :
    compile options name root = .ok d ↔
      root.name = "mavlink" ∧ ∃ fullEnums allMessages,
        (enumElements root).mapM (enumOf options) = .ok fullEnums ∧
          (messageElements root).mapM (messageOf options) = .ok allMessages ∧
            assemble name (Declaration.header root) fullEnums allMessages = d := by
  rw [compile_eq, bind_eq_ok_iff]
  constructor
  · rintro ⟨declared, hdeclared, h⟩
    obtain ⟨hroot, henums, hmessages, hheader⟩ := Declaration.ofElement_eq_ok_iff.1 hdeclared
    obtain ⟨fullEnums, hfull, h⟩ := bind_eq_ok_iff.1 h
    obtain ⟨allMessages, hall, h⟩ := bind_eq_ok_iff.1 h
    refine ⟨hroot, fullEnums, allMessages, mapM_mapM_eq_ok_iff.1 ⟨_, henums, hfull⟩,
      mapM_mapM_eq_ok_iff.1 ⟨_, hmessages, hall⟩, ?_⟩
    rw [← hheader] at h
    exact Except.ok.inj h
  · rintro ⟨hroot, fullEnums, allMessages, hfull, hall, rfl⟩
    obtain ⟨enums, henums, hfull⟩ := mapM_mapM_eq_ok_iff.2 hfull
    obtain ⟨messages, hmessages, hall⟩ := mapM_mapM_eq_ok_iff.2 hall
    refine ⟨{ Declaration.header root with enums, messages },
      Declaration.ofElement_eq_ok_iff.2 ⟨hroot, henums, hmessages, rfl⟩, ?_⟩
    exact bind_eq_ok_iff.2 ⟨_, hfull, bind_eq_ok_iff.2 ⟨_, hall, rfl⟩⟩

/-- The two definitions differ in their sections of messages at most. -/
structure AlikeButMessages (root other : Element) : Prop where
  name : other.name = root.name
  childrenWith : ∀ kind, kind ≠ "messages" → other.childrenWith kind = root.childrenWith kind

/-- Other messages that can be read change the messages of the dialect and nothing else. -/
theorem AlikeButMessages.compile_eq_ok {options : Options} {name : String} {root other : Element}
    {d : MavDialect.Dialect} {messages : List Message} (h : AlikeButMessages root other)
    (hd : compile options name root = .ok d)
    (hread : (messageElements other).mapM (messageOf options) = .ok messages) :
    compile options name other =
      .ok { d with
        messages :=
          (messages.filter fun m => !m.workInProgress).map Message.underscoreCarrier } := by
  obtain ⟨hroot, fullEnums, allMessages, henums, _, rfl⟩ := compile_eq_ok_iff.1 hd
  have helements : enumElements other = enumElements root := by
    rw [enumElements, enumElements, h.childrenWith _ (by decide)]
  have hheader : Declaration.header other = Declaration.header root := by
    rw [Declaration.header, Declaration.header, h.childrenWith _ (by decide),
      h.childrenWith _ (by decide), h.childrenWith _ (by decide)]
  refine compile_eq_ok_iff.2 ⟨h.name.trans hroot, fullEnums, messages, ?_, hread, ?_⟩
  · rw [helements, henums]
  · rw [hheader]
    rfl

/-! ## One enum -/

/-- An enum's class is made of its own name. -/
theorem name_of_enumOf {options : Options} {e : Element} {x : Enumeration}
    (h : enumOf options e = .ok x) :
    e.attribute? "name" = some x.sourceName ∧ x.name = Naming.className x.sourceName := by
  obtain ⟨declared, hdeclared, h⟩ := bind_eq_ok_iff.1 h
  obtain ⟨entries, _, hdeclared⟩ := bind_eq_ok_iff.1 hdeclared
  obtain ⟨name, hname, hdeclared⟩ := bind_eq_ok_iff.1 hdeclared
  cases hdeclared
  unfold enumeration at h
  rw [Traced.result_bind, Traced.result_report] at h
  obtain ⟨_, _, h⟩ := bind_eq_ok_iff.1 h
  rw [Traced.result_bind] at h
  obtain ⟨values, _, h⟩ := bind_eq_ok_iff.1 h
  cases h
  exact ⟨Declaration.require_eq_ok hname, rfl⟩

/-! ## One message -/

/-- A message is made of the parts, the id and the name that its element has. -/
theorem messageOf_eq_ok_iff {options : Options} {e : Element} {m : Message} :
    messageOf options e = .ok m ↔
      ∃ declared id fs, e.children.mapM Declaration.Part.ofElement = .ok declared.parts ∧
        e.attribute? "id" = some declared.id ∧ e.attribute? "name" = some declared.name ∧
          messageId declared.id = .ok id ∧
            fields options declared.name false declared.parts = .ok fs ∧
              assembleMessage options declared id fs = m := by
  constructor
  · intro h
    obtain ⟨declared, hdeclared, h⟩ := bind_eq_ok_iff.1 h
    obtain ⟨hparts, hid, hname⟩ := Declaration.message_of_element hdeclared
    rw [result_message] at h
    obtain ⟨id, hnumber, h⟩ := bind_eq_ok_iff.1 h
    obtain ⟨fs, hfields, h⟩ := bind_eq_ok_iff.1 h
    exact ⟨declared, id, fs, hparts, hid, hname, hnumber, hfields, Except.ok.inj h⟩
  · rintro ⟨declared, id, fs, hparts, hid, hname, hnumber, hfields, rfl⟩
    have hdeclared : Declaration.Message.ofElement e = .ok declared := by
      unfold Declaration.Message.ofElement
      rw [hparts, Declaration.require_of_attribute hid, Declaration.require_of_attribute hname]
      rfl
    refine bind_eq_ok_iff.2 ⟨declared, hdeclared, ?_⟩
    rw [result_message]
    exact bind_eq_ok_iff.2 ⟨id, hnumber, bind_eq_ok_iff.2 ⟨fs, hfields, rfl⟩⟩

/-- A message is work in progress when its element is marked so, wherever the mark stands. -/
theorem workInProgress_of_messageOf {options : Options} {e : Element} {m : Message}
    (h : messageOf options e = .ok m) : m.workInProgress = isUnfinished e := by
  obtain ⟨declared, id, fs, hparts, _, _, _, _, rfl⟩ := messageOf_eq_ok_iff.1 h
  exact Declaration.contains_of_parts (fun _ _ h => (Declaration.marks_of_part h).2) hparts

/-- The messages that are kept are what the elements without a mark yield. -/
theorem finished_of_walk {options : Options} {elements : List Element} {messages : List Message}
    (h : elements.mapM (messageOf options) = .ok messages) :
    (elements.filter fun e => !isUnfinished e).mapM (messageOf options) =
      .ok (messages.filter fun m => !m.workInProgress) := by
  rw [mapM_eq_ok_iff_forall₂] at *
  refine List.rel_filter (fun e m hm => ?_) h
  dsimp only
  rw [workInProgress_of_messageOf hm]

end Compile

end MavDialect
