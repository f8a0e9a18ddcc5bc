-- A field of a message: what was declared, the bytes it takes, and the type that generated code
-- gives it.
import MavDialect.Naming.Identifier
import MavDialect.Wire.FieldType

namespace MavDialect

structure Field where
  sourceName : String
  name : String
  /-- The type as declared, such as `char[16]`. -/
  declaredType : String
  elementType : Primitive
  elementSize : Nat
  arrayLength : Option Nat
  totalSize : Nat
  /-- The first byte in the payload; 0 until the message is laid out. -/
  offset : Nat
  isExtension : Bool
  enumSourceName : Option String
  enumName : Option String
  /-- The type in generated code: the class of an enum, `string`, or the primitive, where all
  but `string` are marked by `[]` for an array. -/
  fieldType : String
  units : String
  description : List String
  deriving Repr, DecidableEq

namespace Field

/-- A base field of a type that was read from `declaredType`. -/
def ofType (sourceName declaredType : String) (type : FieldType) : Field where
  sourceName
  name := Naming.camel sourceName
  declaredType
  elementType := type.element
  elementSize := type.elementSize
  arrayLength := type.length
  totalSize := type.totalSize
  offset := 0
  isExtension := false
  enumSourceName := none
  enumName := none
  fieldType := if type.isText then "string" else type.typeName
  units := ""
  description := []

/-- A base field with a declared name and type. -/
def declare (sourceName declaredType : String) : Except FieldTypeError Field :=
  (FieldType.parse declaredType).map (ofType sourceName declaredType)

def isArray (f : Field) : Bool := f.arrayLength.isSome

def isText (f : Field) : Bool := f.elementType = .char && f.isArray

/-- Gives the field the type of an enum; it stays an array if it is one. -/
def asEnum (f : Field) (sourceName className : String) : Field :=
  { f with
    fieldType := if f.isArray then className ++ "[]" else className
    enumSourceName := some sourceName
    enumName := some className }

end Field

end MavDialect
