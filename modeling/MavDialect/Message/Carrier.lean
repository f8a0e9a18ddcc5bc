-- The two messages that carry commands.  Their wire fields give way to the accessors `param1`
-- to `param7` of the command classes by taking a leading underscore.
import MavDialect.Message.Basic

namespace MavDialect.Message

/-- The class of the carrier with scaled integer positions. -/
def intCarrier : String := "CommandInt"

/-- The class of the carrier with seven plain parameters. -/
def longCarrier : String := "CommandLong"

/-- The names in the integer carrier: the first four parameters, and the position as the last
three. -/
def intFieldName (name : String) : String :=
  if ["param1", "param2", "param3", "param4"].contains name then "_" ++ name
  else if name = "x" then "_param5"
  else if name = "y" then "_param6"
  else if name = "z" then "_param7"
  else name

/-- The names in the plain carrier: whatever starts with `param`. -/
def longFieldName (name : String) : String :=
  if "param".toList.isPrefixOf name.toList then "_" ++ name else name

/-- Changes the names of the fields in generated code, and nothing else. -/
def mapFieldNames (rename : String → String) (m : Message) : Message :=
  { m with fields := m.fields.map fun f => { f with name := rename f.name } }

def underscoreInt (m : Message) : Message := m.mapFieldNames intFieldName

def underscoreLong (m : Message) : Message := m.mapFieldNames longFieldName

/-- Renames the fields of a carrier; another message stays as it is. -/
def underscoreCarrier (m : Message) : Message :=
  if m.name = intCarrier then m.underscoreInt
  else if m.name = longCarrier then m.underscoreLong
  else m

/-- How the fields of a message of this class are renamed. -/
def carrierFieldName (className : String) : String → String :=
  if className = intCarrier then intFieldName
  else if className = longCarrier then longFieldName
  else fun name => name

/-- Only the class of a message decides how its fields are renamed. -/
theorem underscoreCarrier_eq (m : Message) :
    m.underscoreCarrier = m.mapFieldNames (carrierFieldName m.name) := by
  unfold underscoreCarrier carrierFieldName
  split
  · rfl
  · split
    · rfl
    · simp [mapFieldNames]

end MavDialect.Message
