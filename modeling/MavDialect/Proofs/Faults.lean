-- What can be wrong with a definition, read off its element tree alone.  The faults are listed in
-- the order in which they count: the root, then missing attributes in document order, then the
-- numbers of all enums, then ids and field types of all messages.
import MavDialect.Compile

namespace MavDialect.Faults

/-! ## What a definition holds -/

/-- The enums of all sections, in document order. -/
def enumElements (root : Element) : List Element :=
  (root.childrenWith "enums").flatMap (·.childrenWith "enum")

/-- The messages of all sections, in document order. -/
def messageElements (root : Element) : List Element :=
  (root.childrenWith "messages").flatMap (·.childrenWith "message")

/-! ## Missing attributes -/

def missing (e : Element) (attr : String) : List CompileError :=
  if (e.attribute? attr).isSome then [] else [.missingAttribute e.name attr]

/-- The entries come before the name of their enum. -/
def enumMissing (e : Element) : List CompileError :=
  (e.childrenWith "entry").flatMap (missing · "name") ++ missing e "name"

def fieldMissing (f : Element) : List CompileError := missing f "name" ++ missing f "type"

/-- The fields come before the id and the name of their message. -/
def messageMissing (m : Element) : List CompileError :=
  (m.childrenWith "field").flatMap fieldMissing ++ missing m "id" ++ missing m "name"

def sectionMissing (e : Element) : List CompileError :=
  if e.name = "enums" then (e.childrenWith "enum").flatMap enumMissing
  else if e.name = "messages" then (e.childrenWith "message").flatMap messageMissing
  else []

/-! ## Numbers of entries -/

/-- The number of an entry and the text that stands for it. -/
abbrev Numbering := Int × String

/-- What stands before the first entry, so that the first number is 0 when none is declared. -/
def beforeFirst : Numbering := (-1, "")

/-- The numbering of an entry after the previous one: as declared, or one more without bound.  A
text that is no number counts as 0; it is a fault of its own. -/
def numbering (previous : Numbering) : Option String → Numbering
  | some text => ((EnumNumeral.read? text).getD 0, text)
  | none => (previous.1 + 1, Text.decimalText (previous.1 + 1))

/-- The numbers of the entries that follow the previous one. -/
def numbersAfter (previous : Numbering) : List (Option String) → List Int
  | [] => []
  | value :: rest => (numbering previous value).1 :: numbersAfter (numbering previous value) rest

/-- The greatest number of 128 bits. -/
def greatest : Int := Text.signedBound 128 - 1

/-- What is wrong with one entry after the previous one. -/
def entryFaults (previous : Numbering) : Option String → List CompileError
  | some text =>
    if (EnumNumeral.read? text).isSome then [] else [.invalidNumber "entry" "value" text]
  | none =>
    if previous.1 = greatest then [.invalidNumber "entry" "value" (previous.2 ++ " + 1")] else []

/-- What is wrong with the entries that follow the previous one. -/
def entriesFaults (previous : Numbering) : List (Option String) → List CompileError
  | [] => []
  | value :: rest => entryFaults previous value ++ entriesFaults (numbering previous value) rest

/-- The values that the entries of an enum declare. -/
def entryValues (e : Element) : List (Option String) :=
  (e.childrenWith "entry").map (·.attribute? "value")

def numberFaults (e : Element) : List CompileError := entriesFaults beforeFirst (entryValues e)

/-! ## Ids and field types -/

def idFaults (id : String) : List CompileError :=
  if (Text.integerWithin? 64 10 (Text.trimChars id.toList)).isSome then []
  else [.invalidNumber "message" "id" id]

def typeFaults (message field type : String) : List CompileError :=
  match FieldType.parse type with
  | .ok _ => []
  | .error cause => [.fieldType message field cause]

/-- The id of a message comes before its fields. -/
def messageFaults (m : Element) : List CompileError :=
  (m.attribute? "id").toList.flatMap idFaults ++
    (m.childrenWith "field").flatMap fun f =>
      (f.attribute? "type").toList.flatMap fun type =>
        typeFaults ((m.attribute? "name").getD "") ((f.attribute? "name").getD "") type

/-! ## All faults -/

def rootFaults (root : Element) : List CompileError :=
  if root.name = "mavlink" then [] else [.unexpectedRoot root.name]

/-- Everything that is wrong with a definition, in the order in which it counts. -/
def all (root : Element) : List CompileError :=
  rootFaults root ++ root.children.flatMap sectionMissing ++
    (enumElements root).flatMap numberFaults ++ (messageElements root).flatMap messageFaults

end MavDialect.Faults
