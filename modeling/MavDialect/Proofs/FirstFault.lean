-- How a compilation ends: in the first fault of the definition, and well when it has none.  Each
-- stage looks only at what stands in the tree, so its faults can be listed before it runs.
import MavDialect.Proofs.CompileStages
import MavDialect.Proofs.DefinitionReading
import MavDialect.Proofs.EnumNumeralReading

namespace MavDialect

namespace Compile

open Faults Outcome Traced

/-! ## Numbers of entries -/

/-- What the numbers of the next entries are counted from. -/
def standing : Option EnumValue → Numbering
  | none => beforeFirst
  | some v => (v.value, v.sourceValue)

/-- A number that fits has a next one that fits, unless it is the greatest. -/
theorem fits_next_iff {n : Int} (h : Text.fitsSigned 128 n) :
    Text.fitsSigned 128 (n + 1) ↔ n ≠ greatest := by
  unfold greatest
  rw [Text.fitsSigned_iff] at *
  omega

theorem fails_entryNumber {previous : Option EnumValue} (e : Declaration.Entry)
    (hfits : Text.fitsSigned 128 (standing previous).1) :
    Fails (entryNumber previous e) (entryFaults (standing previous) e.value) := by
  unfold entryNumber entryFaults
  rcases e.value with _ | text
  · rcases previous with _ | v
    · rfl
    · have hnext : Text.fitsSigned 128 (v.value + 1) ↔ v.value ≠ greatest := fits_next_iff hfits
      show Fails (if Text.fitsSigned 128 (v.value + 1) then _ else _)
        (if v.value = greatest then _ else _)
      by_cases hv : v.value = greatest
      · rw [if_neg (fun h => hnext.1 h hv), if_pos hv]
        rfl
      · rw [if_pos (hnext.2 hv), if_neg hv]
        rfl
  · dsimp only
    cases EnumNumeral.read? text <;> rfl

theorem numbering_of_entryNumber {previous : Option EnumValue} {e : Declaration.Entry}
    {r : Numbering} (h : entryNumber previous e = .ok r) :
    r = numbering (standing previous) e.value ∧ Text.fitsSigned 128 r.1 := by
  unfold entryNumber at h
  rcases hvalue : e.value with _ | text
  · rcases previous with _ | v
    · simp only [hvalue] at h
      cases h
      exact ⟨rfl, rfl⟩
    · simp only [hvalue] at h
      split at h
      · cases h
        exact ⟨rfl, ‹_›⟩
      · cases h
  · rcases hread : EnumNumeral.read? text with _ | n
    · simp [hvalue, hread] at h
    · simp only [hvalue, hread] at h
      cases h
      exact ⟨by rw [numbering, hread]; rfl, EnumNumeral.fitsSigned_of_read? hread⟩

theorem fails_param {ε : Type} (options : Options) (entry : String) (p : Declaration.Param)
    (position : Nat) : Fails (param options entry p position : Traced ε EnumParam).result [] := by
  have hindex : Fails (paramIndex entry position p.index : Traced ε Nat).result [] := by
    unfold paramIndex
    split
    · rfl
    · split <;> rfl
  unfold param
  rw [result_bind]
  exact hindex.bind_pure _

theorem fails_params {ε : Type} (options : Options) (e : Declaration.Entry) :
    Fails (each (fun (p, position) => param options e.name p position) (e.params.zipIdx 1) :
      Traced ε (List EnumParam)).result [] := by
  rw [result_each]
  have h := fails_mapM (l := e.params.zipIdx 1) fun x _ =>
    fails_param (ε := ε) options e.name x.1 x.2
  rwa [List.flatMap_eq_nil_iff.2 fun _ _ => rfl] at h

theorem fails_enumValue {options : Options} {previous : Option EnumValue}
    (e : Declaration.Entry) (hfits : Text.fitsSigned 128 (standing previous).1) :
    Fails (enumValue options previous e).result (entryFaults (standing previous) e.value) := by
  unfold enumValue
  rw [result_bind, result_ofExcept, ← List.append_nil (entryFaults _ _)]
  refine (fails_entryNumber e hfits).bind fun r _ => ?_
  rw [result_bind]
  exact (fails_params options e).bind_pure _

/-- The next entries are counted from the number that an entry gets, and it fits. -/
theorem standing_of_enumValue {options : Options} {previous : Option EnumValue}
    {e : Declaration.Entry} {v : EnumValue} (h : (enumValue options previous e).result = .ok v) :
    standing (some v) = numbering (standing previous) e.value ∧
      Text.fitsSigned 128 (standing (some v)).1 := by
  unfold enumValue at h
  rw [result_bind, result_ofExcept] at h
  obtain ⟨r, hr, h⟩ := bind_eq_ok_iff.1 h
  rw [result_bind] at h
  obtain ⟨params, _, h⟩ := bind_eq_ok_iff.1 h
  cases h
  exact numbering_of_entryNumber hr

/-- The walk keeps that what it counts from fits. -/
theorem fails_enumValues {options : Options} {previous : Option EnumValue}
    (entries : List Declaration.Entry) (hfits : Text.fitsSigned 128 (standing previous).1) :
    Fails (enumValues options previous entries).result
      (entriesFaults (standing previous) (entries.map (·.value))) := by
  induction entries generalizing previous with
  | nil => rfl
  | cons e rest ih =>
    rw [enumValues, result_bind, List.map_cons, entriesFaults]
    refine (fails_enumValue e hfits).bind fun v hv => ?_
    obtain ⟨hstanding, hnext⟩ := standing_of_enumValue hv
    rw [result_bind, ← hstanding]
    exact (ih hnext).bind_pure _

theorem fails_enumeration (options : Options) (e : Declaration.Enum) :
    Fails (enumeration options e).result
      (entriesFaults beforeFirst (e.entries.map (·.value))) := by
  have hvalues : Fails (enumValues options none e.entries).result
      (entriesFaults beforeFirst (e.entries.map (·.value))) := fails_enumValues e.entries rfl
  unfold enumeration
  rw [result_bind, result_report]
  refine (fails_ok ()).bind fun _ _ => ?_
  rw [result_bind]
  exact hvalues.bind_pure _

/-! ## Ids and field types -/

theorem fails_messageId (text : String) : Fails (messageId text) (idFaults text) := by
  unfold messageId idFaults
  cases Text.integerWithin? 64 10 (Text.trimChars text.toList) <;> rfl

theorem fails_fieldType (options : Options) (message : String) (isExtension : Bool)
    (f : Declaration.Field) :
    Fails (field options message isExtension f) (typeFaults message f.name f.typeName) := by
  unfold field typeFaults Field.declare
  cases FieldType.parse f.typeName with
  | error cause => rfl
  | ok type =>
    cases f.enumName <;> rfl

/-- What is wrong with the types of the fields among the parts of a message. -/
def partFaults (message : String) : Declaration.Part → List CompileError
  | .field f => typeFaults message f.name f.typeName
  | _ => []

/-- The mark that starts the extensions changes no fault. -/
theorem fails_fields (options : Options) (message : String) (isExtension : Bool)
    (parts : List Declaration.Part) :
    Fails (fields options message isExtension parts) (parts.flatMap (partFaults message)) := by
  induction parts generalizing isExtension with
  | nil => rfl
  | cons part rest ih =>
    rw [List.flatMap_cons]
    cases part with
    | field f =>
      exact (fails_fieldType options message isExtension f).bind fun _ _ =>
        (ih isExtension).bind_pure _
    | extensions => exact ih true
    | description text => exact ih isExtension
    | deprecated d => exact ih isExtension
    | workInProgress => exact ih isExtension
    | other => exact ih isExtension

theorem fails_message (options : Options) (m : Declaration.Message) :
    Fails (message options m).result
      (idFaults m.id ++ m.parts.flatMap (partFaults m.name)) := by
  rw [result_message]
  exact (fails_messageId m.id).bind fun _ _ =>
    (fails_fields options m.name false m.parts).bind_pure _

/-- The parts of a message have the faults that stand in the tree. -/
theorem partFaults_of_element {message : String} {e : Element} {part : Declaration.Part}
    (h : Declaration.Part.ofElement e = .ok part) :
    partFaults message part =
      if e.name = "field" then
        (e.attribute? "type").toList.flatMap
          (typeFaults message ((e.attribute? "name").getD ""))
      else [] := by
  unfold Declaration.Part.ofElement at h
  split at h
  · rename_i hname
    rw [if_pos hname]
    obtain ⟨f, hf, rfl⟩ := map_eq_ok_iff.1 h
    obtain ⟨name, hname, hf⟩ := bind_eq_ok_iff.1 hf
    obtain ⟨type, htype, hf⟩ := bind_eq_ok_iff.1 hf
    cases hf
    rw [Declaration.require_eq_ok hname, Declaration.require_eq_ok htype]
    simp [partFaults]
  · rename_i hname
    rw [if_neg hname]
    repeat' split at h
    all_goals
      cases h
      rfl

theorem messageFaults_of_element {e : Element} {m : Declaration.Message}
    (h : Declaration.Message.ofElement e = .ok m) :
    idFaults m.id ++ m.parts.flatMap (partFaults m.name) = messageFaults e := by
  obtain ⟨hparts, hid, hname⟩ := Declaration.message_of_element h
  have hfaults : m.parts.flatMap (partFaults m.name) =
      e.children.flatMap fun c =>
        if c.name = "field" then
          (c.attribute? "type").toList.flatMap
            (typeFaults m.name ((c.attribute? "name").getD ""))
        else [] := by
    rw [List.flatMap, List.flatMap, map_of_mapM (fun _ _ _ => partFaults_of_element) hparts]
  rw [messageFaults, hid, hname, Declaration.flatMap_childrenWith, hfaults]
  simp

/-! ## The whole compilation -/

/-- A compilation ends in the first fault of its definition, and well when it has none. -/
theorem fails_compile (options : Options) (name : String) (root : Element) :
    Fails (compile options name root) (all root) := by
  rw [compile_eq, all, List.append_assoc]
  refine (Declaration.fails_dialect root).bind fun declared hdeclared => ?_
  have henums := map_of_mapM (fun e _ d hd => by
    show entriesFaults beforeFirst (d.entries.map (·.value)) = numberFaults e
    rw [Declaration.values_of_enum hd, numberFaults]) (Declaration.enums_of_dialect hdeclared)
  have hmessages := map_of_mapM (fun _ _ _ => messageFaults_of_element)
    (Declaration.messages_of_dialect hdeclared)
  rw [List.flatMap, List.flatMap, ← henums, ← hmessages]
  refine (fails_mapM fun e _ => fails_enumeration options e).bind fun _ _ => ?_
  exact (fails_mapM fun m _ => fails_message options m).bind_pure _

end Compile

end MavDialect
