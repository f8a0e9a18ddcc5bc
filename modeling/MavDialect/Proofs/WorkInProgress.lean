-- Messages that are work in progress leave no trace.  They are read, laid out and fingerprinted
-- like all others, so they have to be well formed, but a definition without them compiles to the
-- same dialect.
import MavDialect.Proofs.CompiledElements

namespace MavDialect.Compile

open Faults Outcome

/-! ## Deleting messages -/

/-- Some messages that are work in progress are deleted, at any places; all else stays. -/
inductive Thinned : (elements kept : List Element) → Prop
  | nil : Thinned [] []
  | keep (e : Element) {elements kept : List Element} :
      Thinned elements kept → Thinned (e :: elements) (e :: kept)
  | delete {e : Element} {elements kept : List Element} :
      e.name = "message" → isUnfinished e → Thinned elements kept → Thinned (e :: elements) kept

/-- A child of the root stays, or it is a section of messages and some of them are deleted. -/
inductive SectionThinned : (e kept : Element) → Prop
  | same (e : Element) : SectionThinned e e
  | messages {e : Element} {kept : List Element} :
      e.name = "messages" → Thinned e.children kept → SectionThinned e { e with children := kept }

/-- Messages are deleted from any of the sections of a definition. -/
structure DefinitionThinned (root kept : Element) : Prop where
  name : kept.name = root.name
  sections : List.Forall₂ SectionThinned root.children kept.children

theorem Thinned.refl (elements : List Element) : Thinned elements elements := by
  induction elements with
  | nil => exact .nil
  | cons e rest ih => exact ih.keep e

theorem Thinned.append {left leftKept right rightKept : List Element} (hl : Thinned left leftKept)
    (hr : Thinned right rightKept) : Thinned (left ++ right) (leftKept ++ rightKept) := by
  induction hl with
  | nil => exact hr
  | keep e _ ih => exact ih.keep e
  | delete hname hmark _ ih => exact ih.delete hname hmark

theorem Thinned.filter {elements kept : List Element} (h : Thinned elements kept)
    (p : Element → Bool) : Thinned (elements.filter p) (kept.filter p) := by
  induction h with
  | nil => exact .nil
  | keep e _ ih =>
    rw [List.filter_cons, List.filter_cons]
    split
    · exact ih.keep e
    · exact ih
  | delete hname hmark _ ih =>
    rw [List.filter_cons]
    split
    · exact ih.delete hname hmark
    · exact ih

theorem Thinned.subset {elements kept : List Element} (h : Thinned elements kept) :
    kept ⊆ elements := by
  induction h with
  | nil => exact List.Subset.refl _
  | keep e _ ih => exact List.cons_subset_cons e ih
  | delete _ _ _ ih => exact List.subset_cons_of_subset _ ih

/-- The messages that are finished all stay. -/
theorem Thinned.filter_finished {elements kept : List Element} (h : Thinned elements kept) :
    (kept.filter fun e => !isUnfinished e) = elements.filter fun e => !isUnfinished e := by
  induction h with
  | nil => rfl
  | keep e _ ih => rw [List.filter_cons, List.filter_cons, ih]
  | delete _ hmark _ ih =>
    rw [List.filter_cons, hmark]
    exact ih

/-! ## What stays of a definition -/

theorem SectionThinned.name_eq {e kept : Element} (h : SectionThinned e kept) :
    kept.name = e.name := by
  cases h <;> rfl

theorem SectionThinned.thinned {e kept : Element} (h : SectionThinned e kept) (kind : String) :
    Thinned (e.childrenWith kind) (kept.childrenWith kind) := by
  cases h with
  | same => exact .refl _
  | messages _ hchildren => exact hchildren.filter _

/-- Only sections of messages change. -/
theorem DefinitionThinned.alike {root kept : Element} (h : DefinitionThinned root kept) :
    AlikeButMessages root kept := by
  refine ⟨h.name, fun kind hkind => ?_⟩
  have hsections := h.sections
  unfold Element.childrenWith
  generalize root.children = children, kept.children = keptChildren at hsections ⊢
  induction hsections with
  | nil => rfl
  | cons hsection _ ih =>
    rw [List.filter_cons, List.filter_cons, ih]
    cases hsection with
    | same => rfl
    | messages hname =>
      have hother : ("messages" == kind) = false := beq_false_of_ne hkind.symm
      simp only [hname, hother, Bool.false_eq_true, if_false]

theorem DefinitionThinned.messages {root kept : Element} (h : DefinitionThinned root kept) :
    Thinned (messageElements root) (messageElements kept) := by
  have hsections := h.sections
  unfold messageElements Element.childrenWith
  generalize root.children = children, kept.children = keptChildren at hsections ⊢
  induction hsections with
  | nil => exact .nil
  | cons hsection _ ih =>
    rw [List.filter_cons, List.filter_cons, hsection.name_eq]
    split
    · exact (hsection.thinned "message").append ih
    · exact ih

/-! ## The law -/

/-- A compiled dialect holds no message that is work in progress, and it stays the same whichever
of these are deleted from its definition. -/
theorem unfinished_messages_leave_no_trace {options : Options} {name : String} {root : Element}
    {d : MavDialect.Dialect} (h : compile options name root = .ok d) :
    (∀ m ∈ d.messages, m.workInProgress = false) ∧
      ∀ kept, DefinitionThinned root kept → compile options name kept = .ok d := by
  have hd := h
  obtain ⟨_, _, allMessages, _, hmessages, rfl⟩ := compile_eq_ok_iff.1 hd
  constructor
  · intro m hm
    obtain ⟨full, hfull, rfl⟩ := List.mem_map.1 hm
    have hmark : full.workInProgress = false := by simpa using (List.mem_filter.1 hfull).2
    rw [Message.underscoreCarrier_eq]
    exact hmark
  · intro kept hkept
    have hthinned := hkept.messages
    -- what is kept could be read before, so it can be read now
    obtain ⟨keptMessages, hread⟩ := exists_mapM_eq_ok_iff.2 fun e he =>
      exists_mapM_eq_ok_iff.1 ⟨allMessages, hmessages⟩ e (hthinned.subset he)
    have hafter := finished_of_walk hread
    rw [hthinned.filter_finished, finished_of_walk hmessages] at hafter
    rw [hkept.alike.compile_eq_ok h hread, ← Except.ok.inj hafter]
    rfl

/-- A draft with its mark in front. -/
def earlyDraft : Element :=
  .ofParts "message" [("id", "5"), ("name", "EARLY")]
    [.ofParts "wip" [] [], .ofParts "field" [("name", "load"), ("type", "float")] []]

/-- A draft with its mark at the end, among the extensions, and with the id of another message. -/
def lateDraft : Element :=
  .ofParts "message" [("id", "4"), ("name", "LATE")]
    [.ofParts "extensions" [] [], .ofParts "field" [("name", "load"), ("type", "float")] [],
      .ofParts "wip" [] []]

/-- Finished messages and a draft that stays, with room for other messages. -/
def draftedDefinition (first last : List Element) : Element :=
  let field := Element.ofParts "field" [("name", "time"), ("type", "uint32_t")] []
  let message (id name : String) := Element.ofParts "message" [("id", id), ("name", name)]
  .ofParts "mavlink" []
    [.ofParts "messages" [] (first ++ [message "4" "PING" [field]]),
      .ofParts "enums" []
        [.ofParts "enum" [("name", "MAV_CMD")] [.ofParts "entry" [("name", "MAV_CMD_GO")] []]],
      .ofParts "messages" []
        ([message "6" "NEXT" [field, .ofParts "wip" [] []], message "7" "PONG" [field]] ++ last)]

theorem two_of_three_drafts_leave_no_trace :
    ∃ d, compile {} "sample" (draftedDefinition [earlyDraft] [lateDraft]) = .ok d ∧
      d.messages.map (·.sourceName) = ["PING", "PONG"] ∧
      (∀ m ∈ d.messages, m.workInProgress = false) ∧
      DefinitionThinned (draftedDefinition [earlyDraft] [lateDraft]) (draftedDefinition [] []) ∧
      compile {} "sample" (draftedDefinition [] []) = .ok d := by
  refine ⟨_, rfl, rfl, ?_⟩
  have hthinned :
      DefinitionThinned (draftedDefinition [earlyDraft] [lateDraft]) (draftedDefinition [] []) :=
    ⟨rfl, .cons (.messages rfl (.delete rfl rfl (.refl _))) (.cons (.same _)
      (.cons (.messages rfl (.keep _ (.keep _ (.delete rfl rfl .nil)))) .nil))⟩
  obtain ⟨hnone, hsame⟩ := unfinished_messages_leave_no_trace
    (rfl : compile {} "sample" (draftedDefinition [earlyDraft] [lateDraft]) = .ok _)
  exact ⟨hnone, hthinned, hsame _ hthinned⟩

end MavDialect.Compile
