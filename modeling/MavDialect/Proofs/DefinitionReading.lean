-- Reading a definition off its tree: which attributes it asks for, and what is read.  The enums
-- and the messages of all sections are read one by one, in document order.
import MavDialect.Proofs.Faults
import MavDialect.Proofs.Outcome

namespace MavDialect.Declaration

open Faults Outcome

/-! ## What is missing -/

theorem fails_require (e : Element) (attr : String) :
    Fails (e.require attr) (missing e attr) := by
  unfold Element.require missing
  cases e.attribute? attr with
  | none => exact fails_error _
  | some value => exact fails_ok value

theorem require_eq_ok {e : Element} {attr value : String} (h : e.require attr = .ok value) :
    e.attribute? attr = some value := by
  unfold Element.require at h
  cases ha : e.attribute? attr with
  | none => simp [ha] at h
  | some found => simpa [ha] using h

theorem require_of_attribute {e : Element} {attr value : String}
    (h : e.attribute? attr = some value) : e.require attr = .ok value := by
  rw [Element.require, h]

theorem fails_entry (e : Element) : Fails (Entry.ofElement e) (missing e "name") :=
  (fails_require e "name").bind_pure _

theorem fails_enum (e : Element) : Fails (Enum.ofElement e) (enumMissing e) :=
  (fails_mapM fun c _ => fails_entry c).bind fun _ _ => (fails_require e "name").bind_pure _

theorem fails_field (e : Element) : Fails (Field.ofElement e) (fieldMissing e) :=
  (fails_require e "name").bind fun _ _ => (fails_require e "type").bind_pure _

theorem fails_part (e : Element) :
    Fails (Part.ofElement e) (if e.name = "field" then fieldMissing e else []) := by
  unfold Part.ofElement
  split
  · exact (fails_field e).map _
  · repeat' split
    all_goals exact fails_ok _

theorem flatMap_childrenWith {α : Type} (e : Element) (name : String) (f : Element → List α) :
    (e.childrenWith name).flatMap f =
      e.children.flatMap fun c => if c.name = name then f c else [] := by
  unfold Element.childrenWith
  induction e.children with
  | nil => rfl
  | cons c rest ih =>
    by_cases hc : c.name = name
    · simp [hc, ih]
    · simp [hc, ih]

theorem fails_message (e : Element) : Fails (Message.ofElement e) (messageMissing e) := by
  have hparts : Fails (e.children.mapM Part.ofElement)
      ((e.childrenWith "field").flatMap fieldMissing) := by
    rw [flatMap_childrenWith]
    exact fails_mapM fun c _ => fails_part c
  rw [messageMissing, List.append_assoc]
  exact hparts.bind fun _ _ =>
    (fails_require e "id").bind fun _ _ => (fails_require e "name").bind_pure _

theorem fails_section (e : Element) : Fails (sectionDefinitions e) (sectionMissing e) := by
  unfold sectionDefinitions sectionMissing
  split
  · exact fails_mapM fun c _ => (fails_enum c).map _
  · split
    · exact fails_mapM fun c _ => (fails_message c).map _
    · exact fails_ok _

theorem fails_dialect (root : Element) :
    Fails (Dialect.ofElement root) (rootFaults root ++ root.children.flatMap sectionMissing) := by
  unfold Dialect.ofElement rootFaults
  split
  · exact (fails_mapM fun c _ => fails_section c).bind_pure _
  · rfl

/-! ## What is read -/

section Kinds

variable {α β γ δ ε : Type} {read : α → Except ε β}

/-- Items that are read and wrapped as one kind are found under that kind. -/
theorem picked_of_mapM {wrap : β → δ} {pick : δ → Option β} {l : List α} {definitions : List δ}
    (h : l.mapM (fun a => (read a).map wrap) = .ok definitions)
    (hpick : ∀ b, pick (wrap b) = some b) :
    (definitions.filterMap pick).map Except.ok = l.map read := by
  induction l generalizing definitions with
  | nil =>
    cases h
    rfl
  | cons a l ih =>
    rw [List.mapM_cons] at h
    obtain ⟨d, hd, h⟩ := bind_eq_ok_iff.1 h
    obtain ⟨rest, hrest, h⟩ := bind_eq_ok_iff.1 h
    obtain ⟨b, hb, rfl⟩ := map_eq_ok_iff.1 hd
    cases h
    rw [List.filterMap_cons_some (hpick b), List.map_cons, List.map_cons, ih hrest, hb]

/-- Nothing is found under another kind. -/
theorem none_picked_of_mapM {wrap : β → δ} {pick : δ → Option γ} {l : List α}
    {definitions : List δ} (h : l.mapM (fun a => (read a).map wrap) = .ok definitions)
    (hpick : ∀ b, pick (wrap b) = none) :
    definitions.filterMap pick = [] := by
  apply List.filterMap_eq_nil_iff.2
  intro d hd
  obtain ⟨a, _, ha⟩ := exists_of_mem_mapM h hd
  obtain ⟨b, _, rfl⟩ := map_eq_ok_iff.1 ha
  exact hpick b

end Kinds

theorem enums_of_section {e : Element} {definitions : List Definition}
    (h : sectionDefinitions e = .ok definitions) :
    (definitions.filterMap (·.enum?)).map Except.ok =
      if e.name = "enums" then (e.childrenWith "enum").map Enum.ofElement else [] := by
  unfold sectionDefinitions at h
  split
  · rename_i hname
    rw [if_pos hname] at h
    exact picked_of_mapM h fun _ => rfl
  · rename_i hname
    rw [if_neg hname] at h
    split at h
    · have hnone : definitions.filterMap (·.enum?) = [] := none_picked_of_mapM h fun _ => rfl
      rw [hnone]
      rfl
    · cases h
      rfl

theorem messages_of_section {e : Element} {definitions : List Definition}
    (h : sectionDefinitions e = .ok definitions) :
    (definitions.filterMap (·.message?)).map Except.ok =
      if e.name = "messages" then (e.childrenWith "message").map Message.ofElement else [] := by
  unfold sectionDefinitions at h
  split at h
  · rename_i hname
    have hnone : definitions.filterMap (·.message?) = [] := none_picked_of_mapM h fun _ => rfl
    rw [hnone, if_neg (by rw [hname]; decide)]
    rfl
  · split
    · rename_i hname
      rw [if_pos hname] at h
      exact picked_of_mapM h fun _ => rfl
    · rename_i hname
      rw [if_neg hname] at h
      cases h
      rfl

/-- What holds of each section holds of all sections together. -/
theorem picked_of_sections {β : Type} {pick : Definition → Option β} {name kind : String}
    {read : Element → Except CompileError β}
    (hsection : ∀ (e : Element) (definitions : List Definition),
      sectionDefinitions e = .ok definitions →
        (definitions.filterMap pick).map Except.ok =
          if e.name = name then (e.childrenWith kind).map read else [])
    {root : Element} {definitions : List (List Definition)}
    (h : root.children.mapM sectionDefinitions = .ok definitions) :
    ((root.childrenWith name).flatMap (·.childrenWith kind)).mapM read =
      .ok (definitions.flatten.filterMap pick) := by
  have hmap := map_of_mapM (fun e _ => hsection e) h
  rw [mapM_eq_ok_iff, List.map_flatMap, flatMap_childrenWith, List.flatMap, ← hmap,
    List.filterMap_flatten, List.map_flatten, List.map_map]
  rfl

/-- The enums are read one by one. -/
theorem enums_of_dialect {root : Element} {d : Dialect} (h : Dialect.ofElement root = .ok d) :
    (enumElements root).mapM Enum.ofElement = .ok d.enums := by
  unfold Dialect.ofElement at h
  split at h
  · obtain ⟨definitions, hdefinitions, h⟩ := bind_eq_ok_iff.1 h
    cases h
    exact picked_of_sections (fun _ _ => enums_of_section) hdefinitions
  · cases h

/-- The messages are read one by one. -/
theorem messages_of_dialect {root : Element} {d : Dialect} (h : Dialect.ofElement root = .ok d) :
    (messageElements root).mapM Message.ofElement = .ok d.messages := by
  unfold Dialect.ofElement at h
  split at h
  · obtain ⟨definitions, hdefinitions, h⟩ := bind_eq_ok_iff.1 h
    cases h
    exact picked_of_sections (fun _ _ => messages_of_section) hdefinitions
  · cases h

theorem value_of_entry {e : Element} {entry : Entry} (h : Entry.ofElement e = .ok entry) :
    entry.value = e.attribute? "value" := by
  obtain ⟨name, _, h⟩ := bind_eq_ok_iff.1 h
  cases h
  rfl

/-- The entries of an enum declare the values that stand in the tree. -/
theorem values_of_enum {e : Element} {d : Enum} (h : Enum.ofElement e = .ok d) :
    d.entries.map (·.value) = entryValues e := by
  obtain ⟨entries, hentries, h⟩ := bind_eq_ok_iff.1 h
  obtain ⟨name, _, h⟩ := bind_eq_ok_iff.1 h
  cases h
  exact map_of_mapM (fun _ _ _ => value_of_entry) hentries

theorem message_of_element {e : Element} {m : Message} (h : Message.ofElement e = .ok m) :
    e.children.mapM Part.ofElement = .ok m.parts ∧ e.attribute? "id" = some m.id ∧
      e.attribute? "name" = some m.name := by
  obtain ⟨parts, hparts, h⟩ := bind_eq_ok_iff.1 h
  obtain ⟨id, hid, h⟩ := bind_eq_ok_iff.1 h
  obtain ⟨name, hname, h⟩ := bind_eq_ok_iff.1 h
  cases h
  exact ⟨hparts, require_eq_ok hid, require_eq_ok hname⟩

/-- What a child of a message is read as, by its name. -/
theorem part_cases {e : Element} {part : Part} (h : Part.ofElement e = .ok part) :
    (e.name = "field" ∧ ∃ f, Field.ofElement e = .ok f ∧ part = .field f) ∨
      (e.name = "extensions" ∧ part = .extensions) ∨
      (e.name = "wip" ∧ part = .workInProgress) ∨
      e.name ∉ ["field", "extensions", "wip"] ∧
        ((∃ text, part = .description text) ∨ (∃ d, part = .deprecated d) ∨
          ∃ name, part = .other name) := by
  unfold Part.ofElement at h
  split at h
  · rename_i hname
    obtain ⟨f, hf, rfl⟩ := map_eq_ok_iff.1 h
    exact .inl ⟨hname, f, hf, rfl⟩
  · split at h
    · cases h
      exact .inr (.inl ⟨‹_›, rfl⟩)
    · split at h
      · cases h
        exact .inr (.inr (.inl ⟨‹_›, rfl⟩))
      · refine .inr (.inr (.inr ⟨by simp [*], ?_⟩))
        split at h
        · cases h
          exact .inl ⟨_, rfl⟩
        · split at h
          · cases h
            exact .inr (.inl ⟨_, rfl⟩)
          · cases h
            exact .inr (.inr ⟨_, rfl⟩)

theorem part_extensions {e : Element} (h : e.name = "extensions") :
    Part.ofElement e = .ok .extensions := by
  unfold Part.ofElement
  rw [h]
  rfl

/-- The two marks are told by their names. -/
theorem marks_of_part {e : Element} {part : Part} (h : Part.ofElement e = .ok part) :
    (part == .extensions) = (e.name == "extensions") ∧
      (part == .workInProgress) = (e.name == "wip") := by
  rcases part_cases h with ⟨hname, f, _, rfl⟩ | ⟨hname, rfl⟩ | ⟨hname, rfl⟩ | ⟨hname, hpart⟩
  · rw [hname]
    exact ⟨rfl, rfl⟩
  · rw [hname]
    exact ⟨rfl, rfl⟩
  · rw [hname]
    exact ⟨rfl, rfl⟩
  · obtain ⟨_, hextensions, hwip⟩ :
        e.name ≠ "field" ∧ e.name ≠ "extensions" ∧ e.name ≠ "wip" := by simpa using hname
    rw [beq_false_of_ne hextensions, beq_false_of_ne hwip]
    rcases hpart with ⟨_, rfl⟩ | ⟨_, rfl⟩ | ⟨_, rfl⟩ <;> exact ⟨rfl, rfl⟩

/-- A mark that is told by its name is among the parts when it is among the children. -/
theorem contains_of_parts {mark : Part} {kind : String} {children : List Element}
    {parts : List Part}
    (hmark : ∀ e part, Part.ofElement e = .ok part → (part == mark) = (e.name == kind))
    (h : children.mapM Part.ofElement = .ok parts) :
    parts.contains mark = children.any (·.name == kind) := by
  have hmarks := map_of_mapM (fun e _ part => hmark e part) h
  have hany := congrArg (fun marks => marks.any fun mark => mark) hmarks
  rw [List.contains_eq_any_beq]
  simpa only [List.any_map, Function.comp_def, BEq.comm] using hany

end MavDialect.Declaration
