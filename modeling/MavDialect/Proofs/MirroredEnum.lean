-- A compiled enum mirrors its element.  Each entry yields one value, in the order of the document,
-- with all that the entry declares and under the name that the prefix of all the entries
-- leaves.  What is work in progress is read like the rest, so it counts for the numbers, the places
-- and the prefix.
import MavDialect.Proofs.EnumNumbering
import MavDialect.Proofs.ShortNames

namespace MavDialect

open Faults Outcome

/-! ## The mirror image of an enum -/

/-- The parameter is what the element declares.  Its index is the declared number, or its place
among all the parameters of the entry. -/
structure MirrorsParam (options : Options) (e : Element) (place : Nat) (p : EnumParam) : Prop where
  index : p.index = ((e.attribute? "index").bind fun text =>
    Text.naturalWithin? 32 (Text.trimChars text.toList)).getD place
  label : p.label = e.attribute? "label"
  units : p.units = (e.attribute? "units").getD ""
  minValue : p.minValue = e.attribute? "minValue"
  maxValue : p.maxValue = e.attribute? "maxValue"
  increment : p.increment = e.attribute? "increment"
  enumName : p.enumName = e.attribute? "enum"
  reserved : p.reserved = e.isSet "reserved"
  description : p.description = Compile.lines options e.text

/-- The value is what the entry declares, but for its number.  `rename` is what its enum does to the
names of its values. -/
structure MirrorsEntry (options : Options) (rename : String → String) (e : Element)
    (v : EnumValue) : Prop where
  sourceName : e.attribute? "name" = some v.sourceName
  name : v.name = rename v.sourceName
  description : v.description = Compile.lines options (Declaration.lastText e "description")
  hasLocation : v.hasLocation = e.isSet "hasLocation"
  isDestination : v.isDestination = e.isSet "isDestination"
  workInProgress : v.workInProgress = Compile.isUnfinished e
  params : List.Forall₂ (fun x p => MirrorsParam options x.1 x.2 p)
    ((e.childrenWith "param").zipIdx 1) v.params

/-- The enum is what the element declares. -/
structure MirrorsEnum (options : Options) (e : Element) (x : Enumeration) : Prop where
  sourceName : e.attribute? "name" = some x.sourceName
  name : x.name = Naming.className x.sourceName
  commonPrefix : x.commonPrefix = x.prefixToCut
  entries : List.Forall₂ (MirrorsEntry options (Naming.shortName · x.commonPrefix))
    (e.childrenWith "entry") x.values
  numbered : Compile.Numbered none (e.childrenWith "entry") x.values

/-- A mirrored value may be renamed by its enum. -/
theorem MirrorsEntry.renamed {options : Options} {e : Element} {v : EnumValue}
    (h : MirrorsEntry options id e v) (rename : String → String) :
    MirrorsEntry options rename e { v with name := rename v.sourceName } :=
  { h with name := rfl }

/-- The values of a mirrored enum have the names that its prefix leaves. -/
theorem MirrorsEnum.name_of_mem {options : Options} {e : Element} {x : Enumeration}
    (h : MirrorsEnum options e x) {v : EnumValue} (hv : v ∈ x.values) :
    v.name = Naming.shortName v.sourceName x.prefixToCut := by
  have hnames := forall_mem_of_forall₂ h.entries
    (q := fun v => v.name = Naming.shortName v.sourceName x.commonPrefix)
    fun _ _ hentry => hentry.name
  rw [hnames v hv, h.commonPrefix]

namespace Compile

open Traced

/-! ## The values of one enum -/

@[simp]
theorem result_paramIndex {ε : Type} (entry : String) (place : Nat) (text : Option String) :
    (paramIndex entry place text : Traced ε Nat).result =
      .ok ((text.bind fun text =>
        Text.naturalWithin? 32 (Text.trimChars text.toList)).getD place) := by
  unfold paramIndex
  rcases text with _ | text
  · rfl
  · simp only [Option.bind_some]
    cases Text.naturalWithin? 32 (Text.trimChars text.toList) <;> rfl

theorem mirrors_param {ε : Type} {options : Options} {entry : String} {e : Element} {place : Nat}
    {p : EnumParam}
    (h : (param options entry (Declaration.Param.ofElement e) place : Traced ε EnumParam).result =
      .ok p) :
    MirrorsParam options e place p := by
  unfold param at h
  rw [result_bind, result_paramIndex] at h
  cases h
  exact ⟨rfl, rfl, rfl, rfl, rfl, rfl, rfl, rfl, rfl⟩

/-- The mark is found by its kind, as the other parts of an entry are. -/
theorem isUnfinished_eq (e : Element) : isUnfinished e = !(e.childrenWith "wip").isEmpty := by
  unfold isUnfinished Element.childrenWith
  induction e.children with
  | nil => rfl
  | cons c rest ih =>
    rw [List.any_cons, ih, List.filter_cons]
    by_cases hc : c.name == "wip" <;> simp [hc]

/-- A value mirrors its entry under its full name. -/
theorem mirrors_enumValue {options : Options} {previous : Option EnumValue} {entry : Element}
    {declared : Declaration.Entry} {v : EnumValue}
    (hread : Declaration.Entry.ofElement entry = .ok declared)
    (h : (enumValue options previous declared).result = .ok v) :
    MirrorsEntry options id entry v := by
  obtain ⟨name, hname, hread⟩ := bind_eq_ok_iff.1 hread
  cases hread
  unfold enumValue at h
  rw [result_bind, result_ofExcept] at h
  obtain ⟨number, _, h⟩ := bind_eq_ok_iff.1 h
  rw [result_bind, result_each] at h
  obtain ⟨params, hparams, h⟩ := bind_eq_ok_iff.1 h
  cases h
  rw [List.zipIdx_map, mapM_eq_ok_iff_forall₂, List.forall₂_map_left_iff] at hparams
  exact ⟨Declaration.require_eq_ok hname, rfl, rfl, rfl, rfl, (isUnfinished_eq entry).symm,
    hparams.imp fun _ _ hparam => mirrors_param hparam⟩

/-- Each entry yields one value, whatever number the values before it have. -/
theorem Walked.mirrors {options : Options} {previous : Option EnumValue} {elements : List Element}
    {values : List EnumValue} (h : Walked options previous elements values) :
    List.Forall₂ (MirrorsEntry options id) elements values := by
  induction h with
  | nil => exact .nil
  | cons hread hvalue _ ih => exact .cons (mirrors_enumValue hread hvalue) ih

/-! ## The enums of a dialect -/

/-- An enum mirrors its element once its names are shortened. -/
theorem mirrors_of_enumOf {options : Options} {e : Element} {x : Enumeration}
    (h : enumOf options e = .ok x) : MirrorsEnum options e x.shortenNames := by
  obtain ⟨hsource, hclass⟩ := name_of_enumOf h
  obtain ⟨entries, hread, hvalues⟩ := values_of_enumOf h
  refine ⟨hsource, hclass, x.prefixToCut_shortenNames.symm, ?_, numbered_of_enumOf h⟩
  refine List.forall₂_map_right_iff.2 ((walked_of_enumValues hread hvalues).mirrors.imp ?_)
  exact fun _ _ hentry => hentry.renamed _

/-- The enums of a dialect mirror the elements of its definition, one by one. -/
theorem mirrors_enums_of_compile {options : Options} {name : String} {root : Element}
    {d : MavDialect.Dialect} (h : compile options name root = .ok d) :
    List.Forall₂ (MirrorsEnum options) (enumElements root) d.enums := by
  obtain ⟨_, fullEnums, _, henums, _, rfl⟩ := compile_eq_ok_iff.1 h
  exact List.forall₂_map_right_iff.2
    ((mapM_eq_ok_iff_forall₂.1 henums).imp fun _ _ => mirrors_of_enumOf)

end Compile

end MavDialect
