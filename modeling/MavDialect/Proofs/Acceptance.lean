-- Which definitions compile: the conditions on the tree, each of them beside the faults that it
-- rules out.  The name of a compilation and its options decide nothing.
import MavDialect.Proofs.FirstFault

namespace MavDialect

namespace Faults

/-- The numbers that the entries of an enum get, counted without bound. -/
def entryNumbers (e : Element) : List Int := numbersAfter beforeFirst (entryValues e)

/-- A definition without faults. -/
structure Acceptable (root : Element) : Prop where
  rootName : root.name = "mavlink"
  entryNames : ∀ e ∈ enumElements root, ∀ entry ∈ e.childrenWith "entry",
    (entry.attribute? "name").isSome
  enumNames : ∀ e ∈ enumElements root, (e.attribute? "name").isSome
  fieldNames : ∀ m ∈ messageElements root, ∀ f ∈ m.childrenWith "field",
    (f.attribute? "name").isSome ∧ (f.attribute? "type").isSome
  messageNames : ∀ m ∈ messageElements root,
    (m.attribute? "id").isSome ∧ (m.attribute? "name").isSome
  numbersRead : ∀ e ∈ enumElements root, ∀ text, some text ∈ entryValues e →
    (EnumNumeral.read? text).isSome
  /-- The greatest number has no next one. -/
  numbersEnd : ∀ e ∈ enumElements root, ∀ i : Nat, (entryValues e)[i + 1]? = some none →
    (entryNumbers e)[i]? ≠ some greatest
  idsRead : ∀ m ∈ messageElements root, ∀ id, m.attribute? "id" = some id →
    (Text.integerWithin? 64 10 (Text.trimChars id.toList)).isSome
  typesRead : ∀ m ∈ messageElements root, ∀ f ∈ m.childrenWith "field",
    ∀ type, f.attribute? "type" = some type → ∃ t, FieldType.parse type = .ok t

/-! ## Missing attributes -/

theorem missing_eq_nil_iff {e : Element} {attr : String} :
    missing e attr = [] ↔ (e.attribute? attr).isSome := by
  unfold missing
  cases e.attribute? attr <;> simp

theorem enumMissing_eq_nil_iff {e : Element} :
    enumMissing e = [] ↔
      (∀ entry ∈ e.childrenWith "entry", (entry.attribute? "name").isSome) ∧
        (e.attribute? "name").isSome := by
  unfold enumMissing
  rw [List.append_eq_nil_iff, List.flatMap_eq_nil_iff, missing_eq_nil_iff]
  simp only [missing_eq_nil_iff]

theorem messageMissing_eq_nil_iff {m : Element} :
    messageMissing m = [] ↔
      (∀ f ∈ m.childrenWith "field",
        (f.attribute? "name").isSome ∧ (f.attribute? "type").isSome) ∧
        (m.attribute? "id").isSome ∧ (m.attribute? "name").isSome := by
  unfold messageMissing fieldMissing
  simp only [List.append_eq_nil_iff, List.flatMap_eq_nil_iff, missing_eq_nil_iff, and_assoc]

/-- A section is of one kind, so what the other kind would lack is nothing. -/
theorem sectionMissing_eq (e : Element) :
    sectionMissing e =
      (if e.name = "enums" then (e.childrenWith "enum").flatMap enumMissing else []) ++
        (if e.name = "messages" then (e.childrenWith "message").flatMap messageMissing
          else []) := by
  unfold sectionMissing
  by_cases henums : e.name = "enums"
  · have hmessages : e.name ≠ "messages" := by
      rw [henums]
      decide
    rw [if_pos henums, if_pos henums, if_neg hmessages, List.append_nil]
  · rw [if_neg henums, if_neg henums, List.nil_append]

/-- Sections are looked at one by one, their enums and messages all together. -/
theorem sectionsMissing_eq_nil_iff {root : Element} :
    root.children.flatMap sectionMissing = [] ↔
      (enumElements root).flatMap enumMissing = [] ∧
        (messageElements root).flatMap messageMissing = [] := by
  unfold enumElements messageElements
  rw [List.flatMap_assoc, List.flatMap_assoc, Declaration.flatMap_childrenWith,
    Declaration.flatMap_childrenWith]
  simp only [List.flatMap_eq_nil_iff (l := root.children), sectionMissing_eq,
    List.append_eq_nil_iff]
  constructor
  · intro h
    exact ⟨fun c hc => (h c hc).1, fun c hc => (h c hc).2⟩
  · rintro ⟨henums, hmessages⟩ c hc
    exact ⟨henums c hc, hmessages c hc⟩

/-! ## Numbers of entries -/

theorem entryFaults_eq_nil_iff {previous : Numbering} {value : Option String} :
    entryFaults previous value = [] ↔
      (∀ text, value = some text → (EnumNumeral.read? text).isSome) ∧
        (value = none → previous.1 ≠ greatest) := by
  unfold entryFaults
  cases value with
  | none => simp
  | some text => simp [Option.isSome_iff_ne_none]

/-- The number before an entry stands at the same place in the numbers with the one they are
counted from. -/
theorem entriesFaults_eq_nil_iff {previous : Numbering} {values : List (Option String)} :
    entriesFaults previous values = [] ↔
      (∀ text, some text ∈ values → (EnumNumeral.read? text).isSome) ∧
        ∀ i : Nat, values[i]? = some none →
          (previous.1 :: numbersAfter previous values)[i]? ≠ some greatest := by
  induction values generalizing previous with
  | nil => simp [entriesFaults]
  | cons value rest ih =>
    rw [entriesFaults, List.append_eq_nil_iff, entryFaults_eq_nil_iff, ih, numbersAfter]
    constructor
    · rintro ⟨⟨hread, hend⟩, hreads, hends⟩
      refine ⟨?_, ?_⟩
      · intro text htext
        rcases List.mem_cons.1 htext with hhead | htail
        · exact hread text hhead.symm
        · exact hreads text htail
      · intro i hi
        cases i with
        | zero => simpa using hend (by simpa using hi)
        | succ i => exact hends i hi
    · rintro ⟨hreads, hends⟩
      refine ⟨⟨?_, ?_⟩, ?_, ?_⟩
      · rintro text rfl
        exact hreads text List.mem_cons_self
      · rintro rfl
        simpa using hends 0 rfl
      · intro text htext
        exact hreads text (List.mem_cons_of_mem _ htext)
      · intro i hi
        exact hends (i + 1) hi

theorem numberFaults_eq_nil_iff {e : Element} :
    numberFaults e = [] ↔
      (∀ text, some text ∈ entryValues e → (EnumNumeral.read? text).isSome) ∧
        ∀ i : Nat, (entryValues e)[i + 1]? = some none →
          (entryNumbers e)[i]? ≠ some greatest := by
  rw [numberFaults, entriesFaults_eq_nil_iff]
  refine and_congr_right fun _ => ⟨fun h i => h (i + 1), ?_⟩
  intro h i
  cases i with
  | zero =>
    intro _
    show some beforeFirst.1 ≠ some greatest
    decide
  | succ i => exact h i

/-! ## Ids and field types -/

theorem idFaults_eq_nil_iff {id : String} :
    idFaults id = [] ↔ (Text.integerWithin? 64 10 (Text.trimChars id.toList)).isSome := by
  unfold idFaults
  cases Text.integerWithin? 64 10 (Text.trimChars id.toList) <;> simp

theorem typeFaults_eq_nil_iff {message field type : String} :
    typeFaults message field type = [] ↔ ∃ t, FieldType.parse type = .ok t := by
  unfold typeFaults
  cases FieldType.parse type <;> simp

theorem messageFaults_eq_nil_iff {m : Element} :
    messageFaults m = [] ↔
      (∀ id, m.attribute? "id" = some id →
        (Text.integerWithin? 64 10 (Text.trimChars id.toList)).isSome) ∧
      ∀ f ∈ m.childrenWith "field", ∀ type, f.attribute? "type" = some type →
        ∃ t, FieldType.parse type = .ok t := by
  unfold messageFaults
  simp only [List.append_eq_nil_iff, List.flatMap_eq_nil_iff, Option.mem_toList,
    idFaults_eq_nil_iff, typeFaults_eq_nil_iff]

/-! ## The whole definition -/

theorem rootFaults_eq_nil_iff {root : Element} : rootFaults root = [] ↔ root.name = "mavlink" := by
  unfold rootFaults
  split <;> simp_all

theorem all_eq_nil_iff {root : Element} : all root = [] ↔ Acceptable root := by
  unfold all
  rw [List.append_eq_nil_iff, List.append_eq_nil_iff, List.append_eq_nil_iff,
    rootFaults_eq_nil_iff, sectionsMissing_eq_nil_iff]
  simp only [List.flatMap_eq_nil_iff, enumMissing_eq_nil_iff, messageMissing_eq_nil_iff,
    numberFaults_eq_nil_iff, messageFaults_eq_nil_iff]
  constructor
  · rintro ⟨⟨⟨hroot, henums, hmessages⟩, hnumbers⟩, htexts⟩
    exact {
      rootName := hroot
      entryNames := fun e he => (henums e he).1
      enumNames := fun e he => (henums e he).2
      fieldNames := fun m hm => (hmessages m hm).1
      messageNames := fun m hm => (hmessages m hm).2
      numbersRead := fun e he => (hnumbers e he).1
      numbersEnd := fun e he => (hnumbers e he).2
      idsRead := fun m hm => (htexts m hm).1
      typesRead := fun m hm => (htexts m hm).2 }
  · intro h
    refine ⟨⟨⟨h.rootName, ?_, ?_⟩, ?_⟩, ?_⟩
    · exact fun e he => ⟨h.entryNames e he, h.enumNames e he⟩
    · exact fun m hm => ⟨h.fieldNames m hm, h.messageNames m hm⟩
    · exact fun e he => ⟨h.numbersRead e he, h.numbersEnd e he⟩
    · exact fun m hm => ⟨h.idsRead m hm, h.typesRead m hm⟩

end Faults

/-- A definition compiles exactly when it is acceptable, whatever the name and the options.  Else
the error is its first fault: the root, then what is missing in document order, then the numbers
of all enums, then the id and the field types of each message. -/
theorem compile_ends_in_the_first_fault (options : Options) (name : String) (root : Element) :
    ((∃ d, compile options name root = .ok d) ↔ Faults.Acceptable root) ∧
      ∀ e, compile options name root = .error e ↔ (Faults.all root).head? = some e := by
  have hfails := Compile.fails_compile options name root
  refine ⟨?_, hfails.error_iff⟩
  rw [hfails.ok_iff, Faults.all_eq_nil_iff]

/-- What a later message lacks comes before a number of an earlier enum. -/
example :
    let entry := Element.ofParts "entry" [("name", "ONLY"), ("value", "one")] []
    let enum := Element.ofParts "enum" [("name", "KIND")] [entry]
    let message := Element.ofParts "message" [("name", "PING")] [.ofParts "wip" [] []]
    compile {} "sample" (.ofParts "mavlink" []
      [.ofParts "enums" [] [enum], .ofParts "messages" [] [message]]) =
        .error (.missingAttribute "message" "id") := rfl

end MavDialect
