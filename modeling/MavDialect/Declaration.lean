-- What a dialect definition says, read off its element tree.  Texts are kept as they were
-- written; numbers and types in them are not looked at yet.  Elements of other names are passed
-- over, and of a repeated part the last one counts.
import MavDialect.Element.Basic
import MavDialect.Text.White

namespace MavDialect.Declaration

structure Deprecated where
  since : Option String
  replacedBy : Option String
  note : Option String
  deriving Repr, DecidableEq

structure Param where
  index : Option String
  label : Option String
  units : Option String
  minValue : Option String
  maxValue : Option String
  increment : Option String
  enumName : Option String
  reserved : Bool
  description : Option String
  deriving Repr, DecidableEq

/-- One value of an enum. -/
structure Entry where
  name : String
  value : Option String
  hasLocation : Bool
  isDestination : Bool
  description : Option String
  params : List Param
  workInProgress : Bool
  deprecated : Option Deprecated
  deriving Repr, DecidableEq

structure Enum where
  name : String
  description : Option String
  entries : List Entry
  deriving Repr, DecidableEq

structure Field where
  name : String
  typeName : String
  enumName : Option String
  units : Option String
  description : Option String
  deriving Repr, DecidableEq

/-- One child of a message. -/
inductive Part where
  | field (f : Field)
  /-- Every field after this mark is an extension. -/
  | extensions
  /-- The whole message is left out. -/
  | workInProgress
  | description (text : String)
  | deprecated (d : Deprecated)
  | other (name : String)
  deriving Repr, DecidableEq

structure Message where
  id : String
  name : String
  parts : List Part
  deriving Repr, DecidableEq

structure Dialect where
  includes : List String
  version : Option String
  dialect : Option String
  enums : List Enum
  messages : List Message
  deriving Repr, DecidableEq

/-! ## Parts without required attributes -/

def Deprecated.ofElement (e : Element) : Deprecated where
  since := e.attribute? "since"
  replacedBy := e.attribute? "replaced_by"
  note := e.text

def Param.ofElement (e : Element) : Param where
  index := e.attribute? "index"
  label := e.attribute? "label"
  units := e.attribute? "units"
  minValue := e.attribute? "minValue"
  maxValue := e.attribute? "maxValue"
  increment := e.attribute? "increment"
  enumName := e.attribute? "enum"
  reserved := e.isSet "reserved"
  description := e.text

/-- The text of the last child with this name; none when that child has no text. -/
def lastText (e : Element) (name : String) : Option String :=
  (e.childrenWith name).getLast?.bind (·.text)

/-! ## Enums -/

def Entry.ofElement (e : Element) : Except CompileError Entry := do
  let name ← e.require "name"
  return {
    name
    value := e.attribute? "value"
    hasLocation := e.isSet "hasLocation"
    isDestination := e.isSet "isDestination"
    description := lastText e "description"
    params := (e.childrenWith "param").map Param.ofElement
    workInProgress := !(e.childrenWith "wip").isEmpty
    deprecated := (e.childrenWith "deprecated").getLast?.map Deprecated.ofElement }

/-- The entries are read before the name of the enum. -/
def Enum.ofElement (e : Element) : Except CompileError Enum := do
  let entries ← (e.childrenWith "entry").mapM Entry.ofElement
  let name ← e.require "name"
  return { name, description := lastText e "description", entries }

/-! ## Messages -/

def Field.ofElement (e : Element) : Except CompileError Field := do
  let name ← e.require "name"
  let typeName ← e.require "type"
  return {
    name
    typeName
    enumName := e.attribute? "enum"
    units := e.attribute? "units"
    description := e.text }

def Part.ofElement (e : Element) : Except CompileError Part :=
  if e.name = "field" then (Field.ofElement e).map .field
  else if e.name = "extensions" then .ok .extensions
  else if e.name = "wip" then .ok .workInProgress
  else if e.name = "description" then .ok (.description (e.text.getD ""))
  else if e.name = "deprecated" then .ok (.deprecated (Deprecated.ofElement e))
  else .ok (.other e.name)

/-- The parts are read before the id and the name of the message. -/
def Message.ofElement (e : Element) : Except CompileError Message := do
  let parts ← e.children.mapM Part.ofElement
  let id ← e.require "id"
  let name ← e.require "name"
  return { id, name, parts }

def Message.isWorkInProgress (m : Message) : Bool := m.parts.contains .workInProgress

/-! ## The whole definition -/

/-- An enum or a message, as it stands in a section of the definition. -/
inductive Definition where
  | enumeration (e : Enum)
  | message (m : Message)
  deriving Repr, DecidableEq

def Definition.enum? : Definition → Option Enum
  | .enumeration e => some e
  | .message _ => none

def Definition.message? : Definition → Option Message
  | .enumeration _ => none
  | .message m => some m

/-- The definitions of one child of the root. -/
def sectionDefinitions (e : Element) : Except CompileError (List Definition) :=
  if e.name = "enums" then
    (e.childrenWith "enum").mapM fun child => (Enum.ofElement child).map .enumeration
  else if e.name = "messages" then
    (e.childrenWith "message").mapM fun child => (Message.ofElement child).map .message
  else .ok []

/-- The text of an element without white space at its ends. -/
def trimmedText (e : Element) : Option String := e.text.map Text.trim

/-- Reads the definition below a root named `mavlink`, in document order. -/
def Dialect.ofElement (root : Element) : Except CompileError Dialect :=
  if root.name = "mavlink" then do
    let definitions ← root.children.mapM sectionDefinitions
    return {
      includes := (root.childrenWith "include").filterMap trimmedText
      version := (root.childrenWith "version").getLast?.bind trimmedText
      dialect := (root.childrenWith "dialect").getLast?.bind trimmedText
      enums := definitions.flatten.filterMap (·.enum?)
      messages := definitions.flatten.filterMap (·.message?) }
  else .error (.unexpectedRoot root.name)

end MavDialect.Declaration
