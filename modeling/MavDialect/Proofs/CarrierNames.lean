-- The fields of the two carriers of commands stand beside the accessors `param1` to `param7`, so
-- they are to have other names.  The plain carrier gives way whatever its fields are called.  The
-- integer carrier has a table of seven names, and a field called `param5`, `param6` or `param7` is
-- not in it: such a field keeps its name, and no other field of a carrier collides.
import MavDialect.Proofs.MirroredMessage

namespace MavDialect

open Faults Outcome

namespace Message

/-! ## Names -/

/-- The accessors that stand beside the fields of a carrier. -/
def accessors : List String :=
  ["param1", "param2", "param3", "param4", "param5", "param6", "param7"]

/-- The accessors that the table of the integer carrier passes over. -/
def passedOver : List String := ["param5", "param6", "param7"]

/-- The classes of the two carriers. -/
def carriers : List String := [intCarrier, longCarrier]

theorem underscore_not_mem_accessors (name : String) : "_" ++ name ∉ accessors := by
  have hfirst : ∀ accessor ∈ accessors, accessor.toList.head? ≠ some '_' := by decide
  exact fun h => hfirst _ h (by simp [String.toList_append])

/-- Every accessor starts with `param`, so the plain carrier leaves none. -/
theorem longFieldName_not_mem_accessors (name : String) : longFieldName name ∉ accessors := by
  have hstart : ∀ accessor ∈ accessors, "param".toList.isPrefixOf accessor.toList := by decide
  unfold longFieldName
  split
  · exact underscore_not_mem_accessors name
  · rename_i hother
    exact fun h => hother (hstart name h)

/-- The table neither changes the last three accessors nor makes a new one. -/
theorem intFieldName_mem_accessors_iff (name : String) :
    intFieldName name ∈ accessors ↔ name ∈ passedOver := by
  have hnew : "_param5" ∉ accessors ∧ "_param6" ∉ accessors ∧ "_param7" ∉ accessors := by decide
  have hposition : "x" ∉ passedOver ∧ "y" ∉ passedOver ∧ "z" ∉ passedOver := by decide
  unfold intFieldName
  split
  · rename_i hfirst
    have hothers : ∀ accessor ∈ ["param1", "param2", "param3", "param4"],
        accessor ∉ passedOver := by decide
    exact iff_of_false (underscore_not_mem_accessors name)
      (hothers name (List.contains_iff_mem.1 hfirst))
  · rename_i hlater
    split
    · subst name
      exact iff_of_false hnew.1 hposition.1
    · split
      · subst name
        exact iff_of_false hnew.2.1 hposition.2.1
      · split
        · subst name
          exact iff_of_false hnew.2.2 hposition.2.2
        · rw [List.contains_iff_mem] at hlater
          have hsplit : accessors = ["param1", "param2", "param3", "param4"] ++ passedOver := rfl
          rw [hsplit, List.mem_append, or_iff_right hlater]

theorem carrierFieldName_mem_accessors_iff {className : String} (h : className ∈ carriers)
    (name : String) :
    carrierFieldName className name ∈ accessors ↔ className = intCarrier ∧ name ∈ passedOver := by
  unfold carrierFieldName
  split
  · rename_i hint
    rw [intFieldName_mem_accessors_iff, and_iff_right hint]
  · rename_i hother
    have hlong : className = longCarrier := by simpa [carriers, hother] using h
    rw [if_pos hlong]
    exact iff_of_false (longFieldName_not_mem_accessors name) fun h => hother h.1

/-! ## Messages -/

/-- The message is a carrier, and one of its fields has the name of an accessor. -/
def Collides (m : Message) : Prop :=
  m.name ∈ carriers ∧ ∃ f ∈ m.fields, f.name ∈ accessors

instance (m : Message) : Decidable m.Collides :=
  inferInstanceAs (Decidable (_ ∧ ∃ f ∈ m.fields, f.name ∈ accessors))

/-- A field of the integer carrier has a name that the table passes over. -/
def HasPassedOver (m : Message) : Prop :=
  m.name = intCarrier ∧ ∃ f ∈ m.fields, f.name ∈ passedOver

theorem collides_underscoreCarrier_iff (m : Message) :
    m.underscoreCarrier.Collides ↔ m.HasPassedOver := by
  rw [underscoreCarrier_eq, Collides, HasPassedOver, mapFieldNames]
  simp only [List.mem_map, exists_exists_and_eq_and]
  constructor
  · rintro ⟨hcarrier, f, hf, hname⟩
    obtain ⟨hint, hpassed⟩ := (carrierFieldName_mem_accessors_iff hcarrier f.name).1 hname
    exact ⟨hint, f, hf, hpassed⟩
  · rintro ⟨hint, f, hf, hpassed⟩
    have hcarrier : m.name ∈ carriers := by simp [carriers, hint]
    exact ⟨hcarrier, f, hf, (carrierFieldName_mem_accessors_iff hcarrier f.name).2 ⟨hint, hpassed⟩⟩

end Message

open Message

/-! ## Compiled messages -/

/-- When matching items are alike, one of the first is as described exactly when one of the others
is. -/
theorem exists_mem_iff_of_forall₂ {α β : Type} {R : α → β → Prop} {p : α → Prop} {q : β → Prop}
    {l : List α} {r : List β} (h : List.Forall₂ R l r) (hR : ∀ a b, R a b → (p a ↔ q b)) :
    (∃ a ∈ l, p a) ↔ ∃ b ∈ r, q b := by
  induction h with
  | nil => simp
  | cons hab _ ih => rw [List.exists_mem_cons_iff, List.exists_mem_cons_iff, hR _ _ hab, ih]

/-- A field of a carrier has the name of an accessor when its element declares one that the table
passes over. -/
theorem MirrorsField.mem_accessors_iff {options : Options} {className : String} {e : Element}
    {f : Field} (h : MirrorsField options (carrierFieldName className) e f)
    (hcarrier : className ∈ carriers) :
    (className = intCarrier ∧ ∃ name ∈ e.attribute? "name", Naming.camel name ∈ passedOver) ↔
      f.name ∈ accessors := by
  rw [h.name, carrierFieldName_mem_accessors_iff hcarrier, h.sourceName]
  simp

namespace Compile

/-- The element is an integer carrier, and declares a field with a name that the table passes
over. -/
def DeclaresPassedOver (e : Element) : Prop :=
  (e.attribute? "name").map Naming.className = some intCarrier ∧
    ∃ child ∈ fieldElements e.children, ∃ name ∈ child.attribute? "name",
      Naming.camel name ∈ passedOver

instance (e : Element) : Decidable (DeclaresPassedOver e) :=
  inferInstanceAs (Decidable (_ ∧ ∃ child ∈ fieldElements e.children,
    ∃ name ∈ child.attribute? "name", Naming.camel name ∈ passedOver))

theorem Mirrors.collides_iff {options : Options} {e : Element} {m : Message}
    (h : Mirrors options e m) : DeclaresPassedOver e ↔ m.Collides := by
  have hclass : (e.attribute? "name").map Naming.className = some m.name := by
    rw [h.sourceName, h.name]
    rfl
  rw [DeclaresPassedOver, hclass, Option.some.injEq, Collides]
  by_cases hcarrier : m.name ∈ carriers
  · have hfields := exists_mem_iff_of_forall₂ h.fields fun _ _ hf => hf.mem_accessors_iff hcarrier
    rw [and_iff_right hcarrier, ← hfields]
    constructor
    · rintro ⟨hint, child, hchild, hname⟩
      exact ⟨child, hchild, hint, hname⟩
    · rintro ⟨child, hchild, hint, hname⟩
      exact ⟨hint, child, hchild, hname⟩
  · exact iff_of_false (fun h => hcarrier (by simp [carriers, h.1])) fun h => hcarrier h.1

/-- After the renaming a field of a carrier has the name of an accessor exactly when it belongs to
the integer carrier and the table passes over its name.  So it is with any messages, and in every
dialect that is compiled. -/
theorem only_names_passed_over_collide (options : Options) (name : String) :
    (∀ messages : List Message, (∃ m ∈ messages.map underscoreCarrier, m.Collides) ↔
      ∃ m ∈ messages, m.HasPassedOver) ∧
    ∀ root d, compile options name root = .ok d →
      ((∃ m ∈ d.messages, m.Collides) ↔ ∃ e ∈ finishedElements root, DeclaresPassedOver e) := by
  constructor
  · intro messages
    simp only [List.mem_map, exists_exists_and_eq_and, collides_underscoreCarrier_iff]
  · intro root d h
    exact (exists_mem_iff_of_forall₂ (mirrors_of_compile h) fun _ _ h => h.collides_iff).symm

/-- Both carriers with parameters, the plain one with other names that start like one. -/
def bothCarriers : Element :=
  .ofParts "mavlink" [] [.ofParts "messages" []
    [.ofParts "message" [("id", "75"), ("name", "COMMAND_INT")]
        [declaredField "frame" "uint8_t", declaredField "param1" "float",
          declaredField "param2" "float", declaredField "param3" "float",
          declaredField "param4" "float", declaredField "x" "int32_t",
          declaredField "y" "int32_t", declaredField "z" "float"],
      .ofParts "message" [("id", "76"), ("name", "COMMAND_LONG")]
        [declaredField "confirmation" "uint8_t", declaredField "param1" "float",
          declaredField "param5" "float", declaredField "param_7" "float",
          declaredField "parameters" "float"]]]

theorem parameters_of_both_carriers_give_way :
    ∃ d, compile {} "sample" bothCarriers = .ok d ∧
      d.messages.map (fun m => m.fields.map (·.name)) =
        [["frame", "_param1", "_param2", "_param3", "_param4", "_param5", "_param6", "_param7"],
          ["confirmation", "_param1", "_param5", "_param7", "_parameters"]] ∧
      ¬ ∃ m ∈ d.messages, m.Collides := by
  have hcompile : compile {} "sample" bothCarriers = .ok _ := rfl
  refine ⟨_, hcompile, by decide +kernel, ?_⟩
  have hnone : ¬ ∃ e ∈ finishedElements bothCarriers, DeclaresPassedOver e := by decide +kernel
  exact mt ((only_names_passed_over_collide {} "sample").2 bothCarriers _ hcompile).1 hnone

/-- An integer carrier that declares a fifth parameter keeps the name of an accessor, whether it is
put together by hand or compiled. -/
theorem a_fifth_parameter_collides :
    let m := Message.ofFields "COMMAND_INT" "CommandInt" 75 [.scalar "param5" .float]
    let root := sampleGap.fill (carrierElement [] [declaredField "param5" "float"])
    (∃ renamed ∈ [m].map underscoreCarrier, renamed.Collides) ∧
      ∃ d, compile {} "sample" root = .ok d ∧ ∃ renamed ∈ d.messages, renamed.Collides := by
  intro m root
  exact ⟨by decide +kernel, _, rfl, by decide +kernel⟩

end Compile

end MavDialect
