-- Extending a message.  Fields put in after a mark of extensions are extensions themselves, so the
-- extended message is compatible with the old one, and nothing else of the dialect changes.
import MavDialect.Proofs.CompiledElements
import MavDialect.Proofs.ExtensionLayout
import MavDialect.Proofs.MessageLayout

namespace MavDialect

open Faults Outcome

/-! ## Putting items into a list -/

/-- All items are those of `old` with those of `added` put in at any places, each list in its
order. -/
inductive Woven {α : Type} : (old added all : List α) → Prop
  | nil : Woven [] [] []
  | keep (a : α) {old added all : List α} : Woven old added all → Woven (a :: old) added (a :: all)
  | put (a : α) {old added all : List α} : Woven old added all → Woven old (a :: added) (a :: all)

namespace Woven

variable {α β ε : Type} {old added all : List α}

theorem append (old added : List α) : Woven old added (old ++ added) := by
  induction old with
  | nil =>
    induction added with
    | nil => exact .nil
    | cons a rest ih => exact ih.put a
  | cons a rest ih => exact ih.keep a

theorem eq_of_nil (h : Woven old [] all) : all = old := by
  generalize hadded : ([] : List α) = added at h
  induction h with
  | nil => rfl
  | keep a _ ih => rw [ih hadded]
  | put a _ _ => cases hadded

theorem perm (h : Woven old added all) : all.Perm (old ++ added) := by
  induction h with
  | nil => exact .refl _
  | keep a _ ih => exact ih.cons a
  | put a _ ih => exact (ih.cons a).trans List.perm_middle.symm

theorem filterMap (h : Woven old added all) (f : α → Option β) :
    Woven (old.filterMap f) (added.filterMap f) (all.filterMap f) := by
  induction h with
  | nil => exact .nil
  | keep a _ ih =>
    rw [List.filterMap_cons, List.filterMap_cons]
    cases f a with
    | none => exact ih
    | some b => exact ih.keep b
  | put a _ ih =>
    rw [List.filterMap_cons, List.filterMap_cons]
    cases f a with
    | none => exact ih
    | some b => exact ih.put b

/-- A walk over all items yields what two walks yield, put together in the same way. -/
theorem mapM {f : α → Except ε β} {bs cs : List β} (h : Woven old added all)
    (hold : old.mapM f = .ok bs) (hadded : added.mapM f = .ok cs) :
    ∃ ds, all.mapM f = .ok ds ∧ Woven bs cs ds := by
  induction h generalizing bs cs with
  | nil =>
    cases hold
    cases hadded
    exact ⟨[], rfl, .nil⟩
  | keep a _ ih =>
    obtain ⟨b, bs, hb, hbs, rfl⟩ := mapM_cons_eq_ok_iff.1 hold
    obtain ⟨ds, hds, hwoven⟩ := ih hbs hadded
    exact ⟨b :: ds, mapM_cons_eq_ok_iff.2 ⟨b, ds, hb, hds, rfl⟩, hwoven.keep b⟩
  | put a _ ih =>
    obtain ⟨c, cs, hc, hcs, rfl⟩ := mapM_cons_eq_ok_iff.1 hadded
    obtain ⟨ds, hds, hwoven⟩ := ih hold hcs
    exact ⟨c :: ds, mapM_cons_eq_ok_iff.2 ⟨c, ds, hc, hds, rfl⟩, hwoven.put c⟩

end Woven

/-! ## Extended elements -/

/-- The element declares a field: it has a name, and a type that can be read. -/
structure DeclaresField (e : Element) : Prop where
  isField : e.name = "field"
  named : (e.attribute? "name").isSome
  typed : ∃ type t, e.attribute? "type" = some type ∧ FieldType.parse type = .ok t

/-- The bytes that a declared field takes. -/
def declaredSize (e : Element) : Nat :=
  match FieldType.parse ((e.attribute? "type").getD "") with
  | .ok t => t.totalSize
  | .error _ => 0

/-- The second element is the first with other elements put in after a mark of extensions. -/
def Extends (old : Element) (added : List Element) (new : Element) : Prop :=
  ∃ before mark after all, mark.name = "extensions" ∧ old.children = before ++ mark :: after ∧
    Woven after added all ∧ new = { old with children := before ++ mark :: all }

/-- Elements at the end come after every mark. -/
theorem extends_addChildren {old : Element} (h : ∃ c ∈ old.children, c.name = "extensions")
    (added : List Element) : Extends old added (old.addChildren added) := by
  obtain ⟨mark, hmem, hmark⟩ := h
  obtain ⟨before, after, hchildren⟩ := List.append_of_mem hmem
  refine ⟨before, mark, after, after ++ added, hmark, hchildren, .append after added, ?_⟩
  rw [Element.addChildren, hchildren, List.append_assoc, List.cons_append]

namespace Declaration

def Part.field? : Part → Option Field
  | .field f => some f
  | _ => none

end Declaration

namespace Compile

/-! ## The fields after a mark -/

theorem facts_of_field {options : Options} {message : String} {isExtension : Bool}
    {declared : Declaration.Field} {f : Field}
    (h : field options message isExtension declared = .ok f) :
    f.isExtension = isExtension ∧
      ∃ t, FieldType.parse declared.typeName = .ok t ∧ f.totalSize = t.totalSize := by
  obtain ⟨t, ht, rfl⟩ := field_eq_ok_iff.1 h
  unfold assembleField
  cases declared.enumName with
  | none => exact ⟨rfl, t, ht, rfl⟩
  | some enum => exact ⟨rfl, t, ht, rfl⟩

/-- After a mark the fields are read one by one, all of them as extensions. -/
theorem fields_after_mark (options : Options) (message : String) (parts : List Declaration.Part) :
    fields options message true parts =
      (parts.filterMap (·.field?)).mapM (field options message true) := by
  induction parts with
  | nil => rfl
  | cons part rest ih =>
    cases part with
    | field f =>
      have hpick : (Declaration.Part.field f :: rest).filterMap (·.field?) =
          f :: rest.filterMap (·.field?) := rfl
      rw [fields, ih, hpick, List.mapM_cons]
    | extensions => exact ih
    | workInProgress => exact ih
    | description text => exact ih
    | deprecated d => exact ih
    | other name => exact ih

theorem isExtension_of_fields_after_mark {options : Options} {message : String}
    {parts : List Declaration.Part} {fs : List Field}
    (h : fields options message true parts = .ok fs) : ∀ f ∈ fs, f.isExtension := by
  intro f hf
  rw [fields_after_mark] at h
  obtain ⟨declared, _, hdeclared⟩ := exists_of_mem_mapM h hf
  exact (facts_of_field hdeclared).1

/-- The parts after some others are read by themselves, but for the mark that these may hold. -/
theorem fields_append_eq_ok_iff {options : Options} {message : String} {isExtension : Bool}
    {before after : List Declaration.Part} {fs : List Field} :
    fields options message isExtension (before ++ after) = .ok fs ↔
      ∃ base rest, fields options message isExtension before = .ok base ∧
        fields options message (isExtension || before.contains .extensions) after = .ok rest ∧
          base ++ rest = fs := by
  induction before generalizing isExtension fs with
  | nil =>
    constructor
    · intro h
      exact ⟨[], fs, rfl, by simpa using h, rfl⟩
    · rintro ⟨base, rest, hbase, hrest, rfl⟩
      cases hbase
      simpa using hrest
  | cons part before ih =>
    cases part with
    | field f =>
      have hmark : (Declaration.Part.field f :: before).contains .extensions =
        before.contains .extensions := rfl
      simp only [List.cons_append, fields, bind_eq_ok_iff, ih, hmark, pure, Except.pure,
        Except.ok.injEq]
      constructor
      · rintro ⟨first, hfirst, _, ⟨base, rest, hbase, hrest, rfl⟩, rfl⟩
        exact ⟨first :: base, rest, ⟨first, hfirst, base, hbase, rfl⟩, hrest, rfl⟩
      · rintro ⟨_, rest, ⟨first, hfirst, base, hbase, rfl⟩, hrest, rfl⟩
        exact ⟨first, hfirst, _, ⟨base, rest, hbase, hrest, rfl⟩, rfl⟩
    | extensions =>
      have hmark : (isExtension || (Declaration.Part.extensions :: before).contains .extensions) =
          (true || before.contains .extensions) := by cases isExtension <;> rfl
      rw [hmark]
      exact ih
    | workInProgress => exact ih
    | description text => exact ih
    | deprecated d => exact ih
    | other name => exact ih

/-- The fields before a mark are read by themselves. -/
theorem fields_mark_eq_ok_iff {options : Options} {message : String} {isExtension : Bool}
    {before after : List Declaration.Part} {fs : List Field} :
    fields options message isExtension (before ++ .extensions :: after) = .ok fs ↔
      ∃ base rest, fields options message isExtension before = .ok base ∧
        fields options message true after = .ok rest ∧ base ++ rest = fs :=
  fields_append_eq_ok_iff

/-- An element that declares a field is read as one, and yields one after a mark. -/
theorem exists_field_of_declares {e : Element} (h : DeclaresField e) (options : Options)
    (message : String) :
    ∃ (declared : Declaration.Field) (f : Field),
      Declaration.Part.ofElement e = .ok (.field declared) ∧
        field options message true declared = .ok f ∧ f.totalSize = declaredSize e := by
  obtain ⟨hname, hnamed, type, t, htype, ht⟩ := h
  obtain ⟨name, hnamed⟩ := Option.isSome_iff_exists.1 hnamed
  let declared : Declaration.Field :=
    ⟨name, type, e.attribute? "enum", e.attribute? "units", e.text⟩
  have hread : Declaration.Field.ofElement e = .ok declared := by
    unfold Declaration.Field.ofElement
    rw [Declaration.require_of_attribute hnamed, Declaration.require_of_attribute htype]
    rfl
  have hnoFault : typeFaults message declared.name declared.typeName = [] :=
    typeFaults_eq_nil_iff.2 ⟨t, ht⟩
  obtain ⟨f, hf⟩ := (fails_fieldType options message true declared).ok_iff.2 hnoFault
  obtain ⟨_, found, hfound, hsize⟩ := facts_of_field hf
  have hsame : t = found := Except.ok.inj (ht.symm.trans hfound)
  refine ⟨declared, f, ?_, hf, ?_⟩
  · rw [Declaration.Part.ofElement, if_pos hname, hread]
    rfl
  · rw [declaredSize, htype, Option.getD_some, ht, hsize, hsame]

theorem exists_fields_of_added {added : List Element} (h : ∀ e ∈ added, DeclaresField e)
    (options : Options) (message : String) :
    ∃ (declared : List Declaration.Field) (fs : List Field),
      added.mapM Declaration.Part.ofElement = .ok (declared.map .field) ∧
        declared.mapM (field options message true) = .ok fs ∧
          fs.map (·.totalSize) = added.map declaredSize := by
  induction added with
  | nil => exact ⟨[], [], rfl, rfl, rfl⟩
  | cons e rest ih =>
    obtain ⟨he, hrest⟩ := List.forall_mem_cons.1 h
    obtain ⟨declared, fs, hdeclared, hfs, hsizes⟩ := ih hrest
    obtain ⟨d, f, hd, hf, hsize⟩ := exists_field_of_declares he options message
    refine ⟨d :: declared, f :: fs, ?_, ?_, ?_⟩
    · exact mapM_cons_eq_ok_iff.2 ⟨_, _, hd, hdeclared, rfl⟩
    · exact mapM_cons_eq_ok_iff.2 ⟨_, _, hf, hfs, rfl⟩
    · rw [List.map_cons, List.map_cons, hsize, hsizes]

/-! ## The extended message -/

theorem compatible_assembleMessage (options : Options) (declared : Declaration.Message) (id : Int)
    (base : List Field) {rest others : List Field} (hrest : ∀ f ∈ rest, f.isExtension)
    (hothers : ∀ f ∈ others, f.isExtension) :
    Message.Compatible (assembleMessage options declared id (base ++ rest))
      (assembleMessage options declared id (base ++ others)) :=
  (Message.compatible_withFields _ base hrest hothers).annotated _ _ _

theorem grown_assembleMessage (options : Options) (declared : Declaration.Message) (id : Int)
    (fs : List Field) {added : List Field} (h : ∀ f ∈ added, f.isExtension) :
    Message.Grown (assembleMessage options declared id fs)
      (assembleMessage options declared id (fs ++ added)) (added.map (·.totalSize)) :=
  (Message.grown_withFields _ fs h).annotated _ _ _

/-- Only the fields of a message change when fields are put in. -/
theorem assembleMessage_woven {options : Options} {declared : Declaration.Message} {id : Int}
    {fs : List Field} {before after all : List Declaration.Part} {added : List Declaration.Field}
    (hparts : declared.parts = before ++ .extensions :: after)
    (h : Woven after (added.map .field) all) :
    assembleMessage options { declared with parts := before ++ .extensions :: all } id fs =
      assembleMessage options declared id fs := by
  -- what is put in has nothing but fields to find
  have hsame {β : Type} (pick : Declaration.Part → Option β)
      (hpick : ∀ f, pick (.field f) = none) :
      (before ++ .extensions :: all).filterMap pick = declared.parts.filterMap pick := by
    have hnone : (added.map Declaration.Part.field).filterMap pick = [] := by
      rw [List.filterMap_map, List.filterMap_eq_nil_iff]
      exact fun f _ => hpick f
    have hwoven := h.filterMap pick
    rw [hnone] at hwoven
    rw [hparts, List.filterMap_append, List.filterMap_append, List.filterMap_cons,
      List.filterMap_cons, hwoven.eq_of_nil]
  have hdescription : partsDescription (before ++ .extensions :: all) =
      partsDescription declared.parts := congrArg List.getLast? (hsame _ fun _ => rfl)
  have hdeprecated : partsDeprecation (before ++ .extensions :: all) =
      partsDeprecation declared.parts := congrArg List.getLast? (hsame _ fun _ => rfl)
  have hmark : (before ++ .extensions :: all).contains .workInProgress =
      declared.parts.contains .workInProgress := by
    rw [hparts, Bool.eq_iff_iff]
    simp [h.perm.mem_iff]
  simp only [assembleMessage, Declaration.Message.isWorkInProgress, hdescription, hdeprecated,
    hmark]

/-- How a message with a mark is read: what stands after the mark may give way to anything that can
be read. -/
theorem messageOf_at_mark {options : Options} {old : Element} {m : Message}
    (h : messageOf options old = .ok m) {before : List Element} {mark : Element}
    {after : List Element} (hmark : mark.name = "extensions")
    (hchildren : old.children = before ++ mark :: after) :
    ∃ declared id partsBefore partsAfter base rest,
      declared.parts = partsBefore ++ .extensions :: partsAfter ∧
      after.mapM Declaration.Part.ofElement = .ok partsAfter ∧
      fields options declared.name true partsAfter = .ok rest ∧
      assembleMessage options declared id (base ++ rest) = m ∧
      ∀ all partsAll others, all.mapM Declaration.Part.ofElement = .ok partsAll →
        fields options declared.name true partsAll = .ok others →
          messageOf options { old with children := before ++ mark :: all } =
            .ok (assembleMessage options
              { declared with parts := partsBefore ++ .extensions :: partsAll } id
              (base ++ others)) := by
  obtain ⟨declared, id, fs, hparts, hid, hname, hnumber, hfields, hm⟩ := messageOf_eq_ok_iff.1 h
  rw [hchildren] at hparts
  obtain ⟨partsBefore, part, partsAfter, hbefore, hpart, hafter, hjoin⟩ :=
    mapM_middle_eq_ok_iff.1 hparts
  have hextensions := Declaration.part_extensions hmark
  cases hextensions.symm.trans hpart
  rw [← hjoin] at hfields
  obtain ⟨base, rest, hbase, hrest, rfl⟩ := fields_mark_eq_ok_iff.1 hfields
  refine ⟨declared, id, partsBefore, partsAfter, base, rest, hjoin.symm, hafter, hrest, hm, ?_⟩
  intro all partsAll others hall hothers
  refine messageOf_eq_ok_iff.2 ⟨{ declared with parts := partsBefore ++ .extensions :: partsAll },
    id, base ++ others, ?_, hid, hname, hnumber, ?_, rfl⟩
  · exact mapM_middle_eq_ok_iff.2 ⟨_, _, _, hbefore, hextensions, hall, rfl⟩
  · exact fields_mark_eq_ok_iff.2 ⟨base, others, hbase, hothers, rfl⟩

theorem filterMap_field? (declared : List Declaration.Field) :
    (declared.map Declaration.Part.field).filterMap (·.field?) = declared := by
  rw [List.filterMap_map]
  exact List.filterMap_some

/-- The fields that are put in after a mark can be read together with those that are there. -/
theorem fields_woven {options : Options} {message : String} {parts all : List Declaration.Part}
    {added : List Declaration.Field} {rest fs : List Field}
    (h : Woven parts (added.map .field) all) (hrest : fields options message true parts = .ok rest)
    (hadded : added.mapM (field options message true) = .ok fs) :
    ∃ others, fields options message true all = .ok others ∧ Woven rest fs others := by
  have hwoven := h.filterMap (·.field?)
  rw [filterMap_field?] at hwoven
  rw [fields_after_mark] at *
  exact hwoven.mapM hrest hadded

/-- A message that is extended can be read, and it is compatible with the old one. -/
theorem messageOf_extended {options : Options} {old new : Element} {added : List Element}
    {m : Message} (h : messageOf options old = .ok m) (hadded : ∀ e ∈ added, DeclaresField e)
    (hextends : Extends old added new) :
    ∃ m', messageOf options new = .ok m' ∧ m.Compatible m' := by
  obtain ⟨before, mark, after, all, hmark, hchildren, hwoven, rfl⟩ := hextends
  obtain ⟨declared, id, partsBefore, partsAfter, base, rest, hparts, hafter, hrest, rfl, hread⟩ :=
    messageOf_at_mark h hmark hchildren
  obtain ⟨fresh, fs, hfresh, hfs, _⟩ := exists_fields_of_added hadded options declared.name
  obtain ⟨partsAll, hall, hpartsWoven⟩ := hwoven.mapM hafter hfresh
  obtain ⟨others, hothers, _⟩ := fields_woven hpartsWoven hrest hfs
  refine ⟨_, hread all partsAll others hall hothers, ?_⟩
  rw [assembleMessage_woven hparts hpartsWoven]
  exact compatible_assembleMessage options declared id base (isExtension_of_fields_after_mark hrest)
    (isExtension_of_fields_after_mark hothers)

/-- A message that is extended at its end keeps all its fields and grows by the new ones. -/
theorem messageOf_grown {options : Options} {old : Element} {added : List Element} {m : Message}
    (h : messageOf options old = .ok m) (hmark : ∃ c ∈ old.children, c.name = "extensions")
    (hadded : ∀ e ∈ added, DeclaresField e) :
    ∃ m', messageOf options (old.addChildren added) = .ok m' ∧
      m.Grown m' (added.map declaredSize) := by
  obtain ⟨mark, hmem, hmark⟩ := hmark
  obtain ⟨before, after, hchildren⟩ := List.append_of_mem hmem
  obtain ⟨declared, id, partsBefore, partsAfter, base, rest, hparts, hafter, hrest, rfl, hread⟩ :=
    messageOf_at_mark h hmark hchildren
  obtain ⟨fresh, fs, hfresh, hfs, hsizes⟩ := exists_fields_of_added hadded options declared.name
  have hall : (after ++ added).mapM Declaration.Part.ofElement =
      .ok (partsAfter ++ fresh.map .field) :=
    mapM_append_eq_ok_iff.2 ⟨_, _, hafter, hfresh, rfl⟩
  have hothers : fields options declared.name true (partsAfter ++ fresh.map .field) =
      .ok (rest ++ fs) := by
    rw [fields_after_mark] at *
    rw [List.filterMap_append, filterMap_field?]
    exact mapM_append_eq_ok_iff.2 ⟨_, _, hrest, hfs, rfl⟩
  have hextension : ∀ f ∈ fs, f.isExtension := fun f hf =>
    isExtension_of_fields_after_mark hothers f (List.mem_append_right rest hf)
  refine ⟨assembleMessage options declared id ((base ++ rest) ++ fs), ?_, ?_⟩
  · have hnew := hread _ _ _ hall hothers
    rw [assembleMessage_woven hparts (.append partsAfter (fresh.map .field))] at hnew
    rw [Element.addChildren, hchildren, List.append_assoc, List.append_assoc]
    exact hnew
  · rw [← hsizes]
    exact grown_assembleMessage options declared id (base ++ rest) hextension

end Compile

end MavDialect
