-- A message: its fields in the order of their declaration, with the layout and the fingerprint
-- that follow from them.
import MavDialect.Deprecation
import MavDialect.Message.Fingerprint

namespace MavDialect

structure Message where
  sourceName : String
  name : String
  id : Int
  description : List String
  deprecated : Option Deprecation
  workInProgress : Bool
  /-- In the order of their declaration. -/
  fields : List Field
  payloadLength : Nat
  /-- One byte that changes with the definition of the message. -/
  fingerprint : UInt8
  deriving Repr, DecidableEq

namespace Message

/-- Replaces the fields, and lays the message out anew. -/
def withFields (m : Message) (fields : List Field) : Message :=
  let placed := Layout.placed fields
  { m with
    fields := placed
    payloadLength := Layout.payloadLength fields
    fingerprint := Fingerprint.ofFields m.sourceName placed }

/-- A message with these fields, laid out. -/
def ofFields (sourceName name : String) (id : Int) (fields : List Field) : Message :=
  withFields
    { sourceName, name, id, description := [], deprecated := none, workInProgress := false,
      fields := [], payloadLength := 0, fingerprint := 0 }
    fields

/-- The first field with this name in generated code. -/
def field? (m : Message) (name : String) : Option Field := m.fields.find? (·.name == name)

def baseFields (m : Message) : List Field := m.fields.filter (!·.isExtension)

def extensionFields (m : Message) : List Field := m.fields.filter (·.isExtension)

def wireFields (m : Message) : List Field := Layout.wireFields m.fields

end Message

end MavDialect
