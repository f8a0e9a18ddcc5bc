-- Declaration trees as JSON: an object with the fields `name`, `attributes`, `text` and
-- `children`, of which only the name is required.
import MavDialect.Element.Basic
import MavDialect.Json.Reader

namespace MavDialect.Element

/-! ## Writing -/

/-- Attributes as an object, in the order of their names. -/
def attributesToJson (attributes : SortedMap String String) : Json :=
  .record (attributes.entries.map fun (name, value) => (name, .string value))

mutual

def toJson : Element → Json
  | ⟨name, attributes, text, children⟩ =>
    .record [("name", .string name), ("attributes", attributesToJson attributes),
      ("text", .optionalString text), ("children", .array (allToJson children))]

def allToJson : List Element → List Json
  | [] => []
  | e :: rest => e.toJson :: allToJson rest

end

/-! ## Reading -/

def fieldNames : List String := ["name", "attributes", "text", "children"]

def readEntries? : List (Option String × Json) → Option (List (String × String))
  | [] => some []
  | (some name, value) :: rest => do
    let text ← value.asString?
    let entries ← readEntries? rest
    return (name, text) :: entries
  | (none, _) :: _ => none

/-- The attributes of an object whose values are texts, none when the field is missing.  Of a
repeated name the last value counts. -/
def readAttributes? (room : Nat) : Option Json → Option (SortedMap String String)
  | none => some .empty
  | some (.object members) =>
    if room = 0 then none else (readEntries? members).map SortedMap.ofList
  | some _ => none

/-- A text; `null` and a missing field stand for none. -/
def readText? : Option Json → Option (Option String)
  | none => some none
  | some (.scalar .null) => some none
  | some v => v.asString?.map some

/-- The children of an array, none when the field is missing. -/
def readChildren? (readItems : List Json → Option (List Element)) :
    Option Json → Option (List Element)
  | none => some []
  | some (.array items) => readItems items
  | some _ => none

/-- Reads an element whose fields may nest `room` containers. -/
def readElement? (room : Nat) (readItems : List Json → Option (List Element)) (v : Json) :
    Option Element := do
  let fields ← v.record? fieldNames
  let name ← (← fields.lookup "name").asString?
  let attributes ← readAttributes? room (fields.lookup "attributes")
  let text ← readText? (fields.lookup "text")
  let children ← readChildren? readItems (fields.lookup "children")
  return ⟨name, attributes, text, children⟩

/-- Reads an element where `room` more containers may be nested.  The element is one of them;
its attributes and its children are each one more. -/
def ofJson? : (room : Nat) → Json → Option Element
  | 0 => fun _ => none
  | 1 => readElement? 0 fun _ => none
  | room + 2 => readElement? (room + 1) fun items => items.mapM (ofJson? room)

/-- The containers that may be nested in a text. -/
def nestingLimit : Nat := 127

/-- Reads the tree that a JSON text holds. -/
def read? (text : String) : Option Element := (Json.parse? text).bind (ofJson? nestingLimit)

end MavDialect.Element
