-- A tree survives its text.  Its object may leave out the members that say nothing, at any element,
-- and its text may be any spelling of that object.  Nested at most 63 elements deep it is read
-- back, so compiling the text is compiling the tree.
import MavDialect.CompileText
import MavDialect.Proofs.JsonReading
import MavDialect.SortedMap.Lookup

namespace MavDialect

namespace Json

@[simp]
theorem asString?_string (text : String) : asString? (string text) = some text := rfl

/-! ## The members of an object -/

/-- Members under different names are read as they are. -/
theorem members?_of_nodup {names : List String} {members : List (String × Json)}
    (h : (members.map (·.1)).Nodup) :
    members? names (members.map fun m => (some m.1, m.2)) = some members := by
  induction members with
  | nil => rfl
  | cons m rest ih =>
    obtain ⟨hm, hrest⟩ := List.nodup_cons.1 h
    have hfresh : rest.any (·.1 == m.1) = false := by
      simp only [List.any_eq_false, beq_iff_eq]
      exact fun n hn hname => hm (List.mem_map.2 ⟨n, hn, hname⟩)
    simp [members?, ih hrest, hfresh]

/-- A member that may be left out where it says nothing. -/
inductive Optional (key : String) (value : Json) (silent : Prop) : List (String × Json) → Prop
  | kept : Optional key value silent [(key, value)]
  | leftOut (h : silent) : Optional key value silent []

namespace Optional

variable {key : String} {value : Json} {silent : Prop} {members : List (String × Json)}

theorem keys_sublist (h : Optional key value silent members) :
    (members.map (·.1)).Sublist [key] := by
  cases h <;> simp

/-- A field is read off the member, or off its absence. -/
theorem read {α : Type} {readField : Option Json → Option α} {a : α}
    (h : Optional key value silent members) (hkept : readField (some value) = some a)
    (hsilent : silent → readField none = some a) : readField (members.lookup key) = some a := by
  cases h with
  | kept => simpa using hkept
  | leftOut h => exact hsilent h

theorem lookup_other (h : Optional key value silent members) {other : String}
    (hne : other ≠ key) : members.lookup other = none := by
  cases h with
  | kept => simp [List.lookup_cons, beq_false_of_ne hne]
  | leftOut => rfl

theorem plain (h : Optional key value silent members) (hvalue : Plain value) :
    ∀ m ∈ members, Plain m.2 := by
  cases h with
  | kept => simpa using hvalue
  | leftOut => simp

end Optional

end Json

open Json

namespace Element

/-! ## Objects of a tree -/

mutual

/-- The number of elements on the longest way down, the first one included. -/
def depth : Element → Nat
  | ⟨_, _, _, children⟩ => greatestDepth children + 1

def greatestDepth : List Element → Nat
  | [] => 0
  | e :: rest => max e.depth (greatestDepth rest)

end

theorem depth_eq (e : Element) : e.depth = greatestDepth e.children + 1 := by
  cases e
  rw [depth]

theorem depth_le_greatestDepth {e : Element} {l : List Element} (h : e ∈ l) :
    e.depth ≤ greatestDepth l := by
  induction l with
  | nil => cases h
  | cons x rest ih =>
    rw [greatestDepth]
    rcases List.mem_cons.1 h with rfl | h
    · exact Nat.le_max_left _ _
    · exact Nat.le_trans (ih h) (Nat.le_max_right _ _)

/-- The object is that of the element, without some of the members that say nothing, in the element
itself and in all below it. -/
inductive Abridged : Element → Json → Prop
  | mk {name : String} {attributes : SortedMap String String} {text : Option String}
      {children : List (Element × Json)} {forAttributes forText forChildren : List (String × Json)}
      (hattributes : Optional "attributes" (attributesToJson attributes) (attributes = .empty)
        forAttributes)
      (htext : Optional "text" (.optionalString text) (text = none) forText)
      (hchildren : Optional "children" (.array (children.map (·.2))) (children = []) forChildren)
      (h : ∀ c ∈ children, Abridged c.1 c.2) :
      Abridged ⟨name, attributes, text, children.map (·.1)⟩
        (.record (("name", .string name) :: (forAttributes ++ (forText ++ forChildren))))

theorem allToJson_eq (l : List Element) : allToJson l = l.map toJson := by
  induction l with
  | nil => rfl
  | cons e rest ih => rw [allToJson, ih, List.map_cons]

/-- The full object leaves nothing out. -/
theorem abridged_toJson : (e : Element) → Abridged e e.toJson
  | ⟨name, attributes, text, children⟩ => by
    have hbelow : ∀ c ∈ children.map fun e => (e, e.toJson), Abridged c.1 c.2 := by
      intro c hc
      obtain ⟨e, he, rfl⟩ := List.mem_map.1 hc
      exact abridged_toJson e
    have h := @Abridged.mk name attributes text _ _ _ _ .kept .kept .kept hbelow
    simpa [toJson, allToJson_eq, Function.comp_def] using h

theorem plain_attributesToJson (attributes : SortedMap String String) :
    (attributesToJson attributes).Plain := by
  refine .record fun m hm => ?_
  obtain ⟨e, _, rfl⟩ := List.mem_map.1 hm
  exact .string e.2

theorem Abridged.plain {e : Element} {v : Json} (h : Abridged e v) : v.Plain := by
  induction h with
  | @mk name attributes text children _ _ _ hattributes htext hchildren _ ih =>
    have hitems : Plain (.array (children.map (·.2))) := by
      refine .array fun v hv => ?_
      obtain ⟨c, hc, rfl⟩ := List.mem_map.1 hv
      exact ih c hc
    refine .record fun m hm => ?_
    simp only [List.mem_cons, List.mem_append] at hm
    rcases hm with rfl | hm | hm | hm
    · exact .string name
    · exact hattributes.plain (plain_attributesToJson attributes) m hm
    · exact htext.plain (plain_optionalString text) m hm
    · exact hchildren.plain hitems m hm

/-! ## Reading -/

theorem readEntries?_entries (entries : List (String × String)) :
    readEntries? (entries.map fun e => (some e.1, .string e.2)) = some entries := by
  induction entries with
  | nil => rfl
  | cons e rest ih => simp [readEntries?, ih]

theorem readAttributes?_toJson (room : Nat) (attributes : SortedMap String String) :
    readAttributes? (room + 1) (some (attributesToJson attributes)) = some attributes := by
  have hentries := readEntries?_entries attributes.entries
  simp [readAttributes?, attributesToJson, record, Function.comp_def, hentries,
    SortedMap.ofList_entries]

theorem readText?_optionalString (text : Option String) :
    readText? (some (.optionalString text)) = some text := by
  cases text <;> rfl

theorem mapM_of_forall {α β : Type} {f : β → Option α} {l : List (α × β)}
    (h : ∀ p ∈ l, f p.2 = some p.1) : (l.map (·.2)).mapM f = some (l.map (·.1)) := by
  induction l with
  | nil => rfl
  | cons p rest ih =>
    obtain ⟨hp, hrest⟩ := List.forall_mem_cons.1 h
    simp [List.mapM_cons, hp, ih hrest]

/-- The members of an object of an element are read as they are: their keys are some of the four, in
their order, so none occurs twice. -/
theorem record?_members (name : String) {attributes text children : Json} {p q r : Prop}
    {forAttributes forText forChildren : List (String × Json)}
    (hattributes : Optional "attributes" attributes p forAttributes)
    (htext : Optional "text" text q forText)
    (hchildren : Optional "children" children r forChildren) :
    (Json.record (("name", string name) :: (forAttributes ++ (forText ++ forChildren)))).record?
        fieldNames =
      some (("name", string name) :: (forAttributes ++ (forText ++ forChildren))) := by
  have hsub := (hattributes.keys_sublist.append
    (htext.keys_sublist.append hchildren.keys_sublist)).cons_cons "name"
  have hkeys : ((("name", string name) :: (forAttributes ++ (forText ++ forChildren))).map
      (·.1)).Nodup := by
    rw [List.map_cons, List.map_append, List.map_append]
    exact hsub.nodup (by decide)
  exact members?_of_nodup hkeys

/-- The object of a tree is read as the tree, where two containers may be nested for each of its
levels. -/
theorem Abridged.ofJson? {e : Element} {v : Json} (h : Abridged e v) {room : Nat}
    (hroom : 2 * e.depth ≤ room) : Element.ofJson? room v = some e := by
  induction h generalizing room with
  | @mk name attributes text children forAttributes forText forChildren
      hattributes htext hchildren _ ih =>
    rw [depth] at hroom
    obtain ⟨room, rfl⟩ : ∃ r, room = r + 2 := ⟨room - 2, by omega⟩
    have hitems : (children.map (·.2)).mapM (Element.ofJson? room) = some (children.map (·.1)) := by
      refine mapM_of_forall fun c hc => ih c hc ?_
      have hle := depth_le_greatestDepth (List.mem_map_of_mem (f := (·.1)) hc)
      omega
    have hfields := record?_members name hattributes htext hchildren
    have hforAttributes := hattributes.read (readAttributes?_toJson room attributes)
      fun hsilent => hsilent ▸ rfl
    have hforText := htext.read (readText?_optionalString text) fun hsilent => hsilent ▸ rfl
    have hforChildren : readChildren? (fun items => items.mapM (Element.ofJson? room))
        (forChildren.lookup "children") = some (children.map (·.1)) :=
      hchildren.read hitems fun hsilent => hsilent ▸ rfl
    have hlookup {key : String} (hkey : key ≠ "name") :
        (("name", string name) :: (forAttributes ++ (forText ++ forChildren))).lookup key =
          (forAttributes.lookup key).or ((forText.lookup key).or (forChildren.lookup key)) := by
      rw [List.lookup_cons, beq_false_of_ne hkey]
      simp [List.lookup_append]
    rw [Element.ofJson?, readElement?, hfields]
    simp [hlookup, hattributes.lookup_other, htext.lookup_other, hchildren.lookup_other,
      hforAttributes, hforText, hforChildren]

/-! ## The text of a tree -/

/-- Every spelling of the object of a tree is read back as the tree, and compiled as it is. -/
theorem a_tree_survives_its_text {e : Element} (hdepth : e.depth ≤ 63) :
    (∀ v, Abridged e v → ∀ text : String, Written v text.toList →
      read? text = some e ∧
        ∀ options name,
          compileText options name text = (compile options name e).mapError TextError.refused) ∧
      Abridged e e.toJson ∧
        ∀ v, Abridged e v → Written v v.compact.toList ∧ Written v v.pretty.toList := by
  refine ⟨fun v hv text htext => ?_, abridged_toJson e, fun v hv => ⟨?_, ?_⟩⟩
  · have hread : read? text = some e := by
      rw [read?, parse?_of_written htext]
      exact hv.ofJson? (by rw [nestingLimit]; omega)
    refine ⟨hread, fun options name => ?_⟩
    simp only [compileText, hread]
    cases compile options name e <;> rfl
  · rw [compact, String.toList_ofList]
    exact hv.plain.written_compact
  · rw [pretty, String.toList_ofList]
    exact hv.plain.written_indented 0

theorem a_version_survives_its_short_text :
    depth ⟨"mavlink", .empty, none, [⟨"version", .empty, some "3", []⟩]⟩ ≤ 63 ∧
      read? (Json.record [("name", .string "mavlink"), ("children", .array [.record
        [("name", .string "version"), ("text", .string "3")]])]).pretty =
          some ⟨"mavlink", .empty, none, [⟨"version", .empty, some "3", []⟩]⟩ := by
  have hdepth : depth ⟨"mavlink", .empty, none, [⟨"version", .empty, some "3", []⟩]⟩ ≤ 63 := by
    decide
  have hversion : Abridged ⟨"version", .empty, some "3", []⟩
      (.record [("name", .string "version"), ("text", .string "3")]) :=
    @Abridged.mk _ _ _ [] _ _ _ (.leftOut rfl) .kept (.leftOut rfl) (by simp)
  have htree : Abridged ⟨"mavlink", .empty, none, [⟨"version", .empty, some "3", []⟩]⟩
      (.record [("name", .string "mavlink"), ("children", .array [.record
        [("name", .string "version"), ("text", .string "3")]])]) :=
    @Abridged.mk _ _ _ [(_, _)] _ _ _ (.leftOut rfl) (.leftOut rfl) .kept
      (List.forall_mem_singleton.2 hversion)
  obtain ⟨hsurvives, -, hprinted⟩ := a_tree_survives_its_text hdepth
  exact ⟨hdepth, (hsurvives _ htree _ (hprinted _ htree).2).1⟩

/-! ## Deeper trees -/

theorem mapM_eq_none {α β : Type} {f : α → Option β} {a : α} {l : List α} (ha : a ∈ l)
    (h : f a = none) : l.mapM f = none := by
  induction l with
  | nil => cases ha
  | cons b rest ih =>
    rw [List.mapM_cons]
    rcases List.mem_cons.1 ha with rfl | ha
    · rw [h]
      rfl
    · rw [ih ha]
      cases f b <;> rfl

theorem exists_depth_eq_greatestDepth {l : List Element} (hne : l ≠ []) :
    ∃ e ∈ l, e.depth = greatestDepth l := by
  induction l with
  | nil => exact absurd rfl hne
  | cons x rest ih =>
    rw [greatestDepth]
    rcases Nat.le_total (greatestDepth rest) x.depth with hle | hle
    · exact ⟨x, List.mem_cons_self, (Nat.max_eq_left hle).symm⟩
    · rw [Nat.max_eq_right hle]
      by_cases hrest : rest = []
      · subst hrest
        exact ⟨x, List.mem_cons_self, Nat.le_antisymm hle (Nat.zero_le _) ▸ rfl⟩
      · obtain ⟨e, he, hdepth⟩ := ih hrest
        exact ⟨e, List.mem_cons_of_mem x he, hdepth⟩

theorem readElement?_toJson_eq_none (room : Nat) {readItems : List Json → Option (List Element)}
    {e : Element} (h : readItems (e.children.map toJson) = none) :
    readElement? room readItems e.toJson = none := by
  obtain ⟨name, attributes, text, children⟩ := e
  have hfields : Json.record? fieldNames (toJson ⟨name, attributes, text, children⟩) = some _ :=
    members?_of_nodup (by simp)
  rw [readElement?, hfields]
  simp [List.lookup_cons, allToJson_eq, readChildren?, h]

theorem ofJson?_toJson_eq_none : (room : Nat) → {e : Element} → room < 2 * e.depth →
    ofJson? room e.toJson = none
  | 0, _, _ => rfl
  | 1, _, _ => readElement?_toJson_eq_none 0 rfl
  | room + 2, e, h => by
    rw [depth_eq] at h
    have hne : e.children ≠ [] := by
      intro hnil
      rw [hnil, greatestDepth] at h
      omega
    -- the deepest child already has too little room
    obtain ⟨c, hc, hdepth⟩ := exists_depth_eq_greatestDepth hne
    have hrefused := ofJson?_toJson_eq_none room (e := c) (by omega)
    exact readElement?_toJson_eq_none _ (mapM_eq_none (List.mem_map_of_mem hc) hrefused)

/-- With all its members, a tree is read back up to this depth and no further. -/
theorem read?_compact_toJson (e : Element) :
    read? e.toJson.compact = if e.depth ≤ 63 then some e else none := by
  rw [read?, parse?_compact (abridged_toJson e).plain, Option.bind_some]
  split
  · exact (abridged_toJson e).ofJson? (by rw [nestingLimit]; omega)
  · exact ofJson?_toJson_eq_none _ (by rw [nestingLimit]; omega)

end Element

end MavDialect
