-- A message may be extended without harm: peers that know the old definition still agree with
-- those that know the new one.  The message keeps its fingerprint and its base fields, and the rest
-- of the dialect does not notice.
import MavDialect.Proofs.MessageExtension

namespace MavDialect

open Faults Outcome

/-! ## A message within a definition -/

/-- A definition with a gap for one message in one of its sections.  The children of `root` and
`holder` are the ones listed beside them. -/
structure MessageGap where
  root : Element
  sectionsBefore : List Element
  holder : Element
  messagesBefore : List Element
  messagesAfter : List Element
  sectionsAfter : List Element
  holder_name : holder.name = "messages"

namespace MessageGap

/-- The definition with a message in the gap. -/
def fill (gap : MessageGap) (m : Element) : Element :=
  { gap.root with
    children := gap.sectionsBefore ++
      { gap.holder with children := gap.messagesBefore ++ m :: gap.messagesAfter } ::
        gap.sectionsAfter }

/-- The messages of some sections. -/
def messagesOf (sections : List Element) : List Element :=
  (sections.filter (·.name == "messages")).flatMap (·.childrenWith "message")

/-- The messages of the definition before the gap. -/
def before (gap : MessageGap) : List Element :=
  messagesOf gap.sectionsBefore ++ gap.messagesBefore.filter (·.name == "message")

/-- The messages of the definition after the gap. -/
def after (gap : MessageGap) : List Element :=
  gap.messagesAfter.filter (·.name == "message") ++ messagesOf gap.sectionsAfter

theorem messageElements_fill (gap : MessageGap) {m : Element} (hm : m.name = "message") :
    messageElements (gap.fill m) = gap.before ++ m :: gap.after := by
  have hholder : (gap.holder.name == "messages") = true := by
    rw [gap.holder_name]
    rfl
  have hmessage : (m.name == "message") = true := by
    rw [hm]
    rfl
  simp [messageElements, Element.childrenWith, fill, before, after, messagesOf, hholder, hmessage]

/-- An element stays the same with the children that it has. -/
theorem withChildren_eq {e : Element} {children : List Element} (h : e.children = children) :
    { e with children } = e := by
  cases e
  cases h
  rfl

/-- Every message of a definition stands in a gap of it. -/
theorem exists_fill_eq {root m : Element} (hm : m ∈ messageElements root) :
    ∃ gap : MessageGap, gap.fill m = root := by
  obtain ⟨holder, hholder, hm⟩ := List.mem_flatMap.1 hm
  obtain ⟨hholder, hname⟩ := List.mem_filter.1 hholder
  obtain ⟨sectionsBefore, sectionsAfter, hsections⟩ := List.append_of_mem hholder
  obtain ⟨messagesBefore, messagesAfter, hmessages⟩ := List.append_of_mem (List.mem_filter.1 hm).1
  refine ⟨⟨root, sectionsBefore, holder, messagesBefore, messagesAfter, sectionsAfter,
    eq_of_beq hname⟩, ?_⟩
  rw [fill, withChildren_eq hmessages, withChildren_eq hsections]

/-- What is in the gap concerns no other section. -/
theorem alike_fill (gap : MessageGap) (m other : Element) :
    Compile.AlikeButMessages (gap.fill m) (gap.fill other) := by
  refine ⟨rfl, fun kind hkind => ?_⟩
  have hholder : (gap.holder.name == kind) = false := by
    rw [gap.holder_name]
    exact beq_false_of_ne hkind.symm
  simp [Element.childrenWith, fill, hholder]

end MessageGap

namespace Compile

/-- The finished messages around one that is finished itself. -/
theorem filter_finished_middle (before after : List Message) {m : Message}
    (hm : m.workInProgress = false) :
    ((before ++ m :: after).filter fun m => !m.workInProgress) =
      (before.filter fun m => !m.workInProgress) ++
        m :: after.filter fun m => !m.workInProgress := by
  rw [List.filter_append, List.filter_cons_of_pos (by rw [hm]; rfl)]

/-- The definition compiles as well when another message is in the gap, and that message alone
changes. -/
theorem compile_fill {options : Options} {name : String} {gap : MessageGap} {old : Element}
    {d : MavDialect.Dialect} (hname : old.name = "message") (hfinished : isUnfinished old = false)
    (h : compile options name (gap.fill old) = .ok d) :
    ∃ before m after, messageOf options old = .ok m ∧
      d.messages = before ++ m.underscoreCarrier :: after ∧
      before.length = (gap.before.filter fun e => !isUnfinished e).length ∧
      ∀ new m', new.name = "message" → messageOf options new = .ok m' →
        m'.workInProgress = false →
        compile options name (gap.fill new) =
          .ok { d with messages := before ++ m'.underscoreCarrier :: after } := by
  have hd := h
  obtain ⟨_, _, allMessages, _, hmessages, rfl⟩ := compile_eq_ok_iff.1 hd
  rw [gap.messageElements_fill hname] at hmessages
  obtain ⟨messagesBefore, m, messagesAfter, hbefore, hm, hafter, rfl⟩ :=
    mapM_middle_eq_ok_iff.1 hmessages
  have hkept : m.workInProgress = false := (workInProgress_of_messageOf hm).trans hfinished
  refine ⟨(messagesBefore.filter fun m => !m.workInProgress).map Message.underscoreCarrier, m,
    (messagesAfter.filter fun m => !m.workInProgress).map Message.underscoreCarrier, hm, ?_, ?_, ?_⟩
  · rw [assemble, filter_finished_middle _ _ hkept, List.map_append, List.map_cons]
  · have hwalk := mapM_eq_ok_iff_forall₂.1 (finished_of_walk hbefore)
    rw [List.length_map, hwalk.length_eq]
  · intro new m' hnew hm' hkept'
    have hread : (messageElements (gap.fill new)).mapM (messageOf options) =
        .ok (messagesBefore ++ m' :: messagesAfter) := by
      rw [gap.messageElements_fill hnew]
      exact mapM_middle_eq_ok_iff.2 ⟨_, _, _, hbefore, hm', hafter, rfl⟩
    rw [(gap.alike_fill old new).compile_eq_ok h hread, filter_finished_middle _ _ hkept',
      List.map_append, List.map_cons]

/-- Whatever fields are put in after a mark of extensions of a finished message, the definition
still compiles.  Only that message changes, and it stays compatible.  Fields at its end come after
all that were there, and the payload grows by what they take. -/
theorem extending_a_message_is_wire_compatible {options : Options} {name : String}
    {gap : MessageGap} {old : Element} {d : MavDialect.Dialect} (hname : old.name = "message")
    (hfinished : isUnfinished old = false) (h : compile options name (gap.fill old) = .ok d) :
    ∃ before m after, d.messages = before ++ m :: after ∧
      before.length = (gap.before.filter fun e => !isUnfinished e).length ∧
      ∀ added new, (∀ e ∈ added, DeclaresField e) → Extends old added new →
        ∃ m', compile options name (gap.fill new) =
            .ok { d with messages := before ++ m' :: after } ∧
          m.Compatible m' ∧
          (new = old.addChildren added → m.Grown m' (added.map declaredSize)) := by
  obtain ⟨before, m, after, hm, hmessages, hplace, hfill⟩ := compile_fill hname hfinished h
  refine ⟨before, m.underscoreCarrier, after, hmessages, hplace, ?_⟩
  intro added new hadded hextends
  obtain ⟨m', hm', hcompatible⟩ := messageOf_extended hm hadded hextends
  have hkept : m'.workInProgress = false := by
    rw [hcompatible.others]
    exact (workInProgress_of_messageOf hm).trans hfinished
  have hnew : new.name = "message" := by
    obtain ⟨_, _, _, _, _, _, _, rfl⟩ := hextends
    exact hname
  refine ⟨m'.underscoreCarrier, hfill new m' hnew hm' hkept, hcompatible.underscoreCarrier, ?_⟩
  rintro rfl
  have hmark : ∃ c ∈ old.children, c.name = "extensions" := by
    obtain ⟨_, mark, _, _, hmark, hchildren, _, _⟩ := hextends
    exact ⟨mark, by simp [hchildren], hmark⟩
  obtain ⟨found, hfound, hgrown⟩ := messageOf_grown hm hmark hadded
  cases hm'.symm.trans hfound
  exact hgrown.underscoreCarrier (by rw [hcompatible.others])

/-- A field with nothing but its name and its type. -/
def declaredField (name type : String) : Element :=
  .ofParts "field" [("name", name), ("type", type)] []

/-- A carrier of commands with two extension fields, or with some elements at other places. -/
def carrierElement (middle last : List Element) : Element :=
  .ofParts "message" [("id", "75"), ("name", "COMMAND_INT")]
    ([declaredField "frame" "uint8_t", declaredField "x" "int32_t", .ofParts "extensions" [] []] ++
      middle ++ [declaredField "note" "char[4]", declaredField "param1" "float"] ++ last)

/-- Before the gap stands a finished message in another section, and a draft. -/
def sampleGap : MessageGap where
  root := .ofParts "mavlink" [] []
  sectionsBefore :=
    [.ofParts "messages" []
      [.ofParts "message" [("id", "4"), ("name", "PING")] [declaredField "time" "uint32_t"]]]
  holder := .ofParts "messages" [] []
  messagesBefore := [.ofParts "message" [("id", "5"), ("name", "DRAFT")] [.ofParts "wip" [] []]]
  messagesAfter := [.ofParts "message" [("id", "6"), ("name", "PONG")] []]
  sectionsAfter := []
  holder_name := rfl

/-- A wide field before the old extensions and an array after them, and both at the end. -/
theorem two_fields_extend_a_carrier :
    let added := [declaredField "time" "uint64_t", declaredField "marks" "uint8_t[3]"]
    let woven :=
      carrierElement [declaredField "time" "uint64_t"] [declaredField "marks" "uint8_t[3]"]
    (∀ e ∈ added, DeclaresField e) ∧ Extends (carrierElement [] []) added woven ∧
      ∃ d before m after, compile {} "sample" (sampleGap.fill (carrierElement [] [])) = .ok d ∧
        d.messages = before ++ m :: after ∧ before.length = 1 ∧
        (∃ m', compile {} "sample" (sampleGap.fill woven) =
            .ok { d with messages := before ++ m' :: after } ∧ m.Compatible m') ∧
        ∃ m', compile {} "sample" (sampleGap.fill ((carrierElement [] []).addChildren added)) =
            .ok { d with messages := before ++ m' :: after } ∧
          m.Compatible m' ∧ m.Grown m' [8, 3] := by
  intro added woven
  have hadded : ∀ e ∈ added, DeclaresField e :=
    List.forall_mem_cons.2 ⟨⟨rfl, rfl, _, _, rfl, FieldType.parse_name .uint64⟩,
      List.forall_mem_singleton.2 ⟨rfl, rfl, _, _, rfl, rfl⟩⟩
  have hwoven : Extends (carrierElement [] []) added woven :=
    ⟨[declaredField "frame" "uint8_t", declaredField "x" "int32_t"], _, _, _, rfl, rfl,
      .put _ (.keep _ (.keep _ (.put _ .nil))), rfl⟩
  have hmark : ∃ c ∈ (carrierElement [] []).children, c.name = "extensions" :=
    ⟨.ofParts "extensions" [] [], by simp [carrierElement, Element.ofParts], rfl⟩
  have hname : (carrierElement [] []).name = "message" := rfl
  have hfinished : isUnfinished (carrierElement [] []) = false := rfl
  obtain ⟨before, m, after, hmessages, hplace, hextend⟩ :=
    extending_a_message_is_wire_compatible hname hfinished
      (rfl : compile {} "sample" (sampleGap.fill (carrierElement [] [])) = .ok _)
  obtain ⟨m₁, h₁, hcompatible₁, _⟩ := hextend added woven hadded hwoven
  obtain ⟨m₂, h₂, hcompatible₂, hgrown⟩ := hextend added _ hadded (extends_addChildren hmark added)
  exact ⟨hadded, hwoven, _, before, m, after, rfl, hmessages, hplace, ⟨m₁, h₁, hcompatible₁⟩,
    m₂, h₂, hcompatible₂, hgrown rfl⟩

end Compile

end MavDialect
