-- Why a dialect definition is refused.  Each cause keeps what it is about; the wording for a
-- person is in one place.
import MavDialect.Wire.FieldType

namespace MavDialect

inductive CompileError where
  /-- The root element is not `mavlink`. -/
  | unexpectedRoot (name : String)
  | missingAttribute (element attr : String)
  /-- A number that cannot be read, or that does not fit. -/
  | invalidNumber (element attr value : String)
  | fieldType (message field : String) (cause : FieldTypeError)
  /-- Commands were asked for, and no enum declares them. -/
  | noCommandEnum
  deriving Repr, DecidableEq

namespace CompileError

def message : CompileError → String
  | unexpectedRoot name => "Expected <mavlink> root element but found <" ++ name ++ ">"
  | missingAttribute element attr =>
    "Missing attribute \"" ++ attr ++ "\" on <" ++ element ++ ">"
  | invalidNumber element attr value =>
    "Invalid " ++ attr ++ " \"" ++ value ++ "\" on <" ++ element ++ ">"
  | fieldType message field cause =>
    "Message " ++ message ++ ", field " ++ field ++ ": " ++ cause.message
  | noCommandEnum => "No enum resolves to MavCmd"

/-- The unknown type behind the error, if a field named one. -/
def unknownType? : CompileError → Option UnknownType
  | fieldType _ _ (.unknown e) => some e
  | _ => none

end CompileError

end MavDialect
