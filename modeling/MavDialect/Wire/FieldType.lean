-- Declared field types: a primitive, or a primitive repeated a fixed number of times, such as
-- `uint16_t` and `char[16]`.
import MavDialect.Text.Digit
import MavDialect.Text.Numeral
import MavDialect.Wire.Primitive

namespace MavDialect

/-- The length of an array is carried in one byte. -/
def maxArrayLength : Nat := 255

/-- A primitive, with the length when it is an array. -/
structure FieldType where
  element : Primitive
  length : Option Nat
  length_le : ∀ n ∈ length, n ≤ maxArrayLength
  deriving DecidableEq

/-- Why a declared type is refused. -/
inductive FieldTypeError where
  | unknown (e : UnknownType)
  | badLength (declared length : String)
  deriving Repr, DecidableEq

def FieldTypeError.message : FieldTypeError → String
  | .unknown e => e.message
  | .badLength declared length =>
    "Invalid array length " ++ length ++ " in type \"" ++ declared ++ "\""

namespace FieldType

/-! ## The written form -/

/-- Splits `element[digits]` into its two parts.  The element has no line break, and the digits
are one or more decimal digits of any script. -/
def splitArray? (cs : List Char) : Option (List Char × List Char) :=
  match cs.reverse with
  | ']' :: rest =>
    match rest.takeWhile Text.isDecimal, rest.dropWhile Text.isDecimal with
    | d :: ds, '[' :: element =>
      if element.contains '\n' then none else some (element.reverse, (d :: ds).reverse)
    | _, _ => none
  | _ => none

/-- An array length: ASCII digits, at most the greatest length. -/
def arrayLength? (digits : List Char) : Option { n : Nat // n ≤ maxArrayLength } :=
  (Text.natural? 10 digits).bind fun n => if h : n ≤ maxArrayLength then some ⟨n, h⟩ else none

/-- Reads a declared type.  An array's element is looked at before its length. -/
def parse (declared : String) : Except FieldTypeError FieldType :=
  match splitArray? declared.toList with
  | some (element, digits) =>
    match Primitive.ofName? (String.ofList element) with
    | .error e => .error (.unknown e)
    | .ok p =>
      match arrayLength? digits with
      | none => .error (.badLength declared (String.ofList digits))
      | some n => .ok ⟨p, some n, by simpa using n.property⟩
  | none =>
    match Primitive.ofName? declared with
    | .error e => .error (.unknown e)
    | .ok p => .ok ⟨p, none, by simp⟩

/-- The bytes of one element of a declared type, whatever its length says. -/
def declaredElementSize (declared : String) : Except UnknownType Nat :=
  match splitArray? declared.toList with
  | some (element, _) => (Primitive.ofName? (String.ofList element)).map Primitive.size
  | none => (Primitive.ofName? declared).map Primitive.size

/-! ## What follows from a type -/

def isArray (t : FieldType) : Bool := t.length.isSome

/-- An array of characters is a text. -/
def isText (t : FieldType) : Bool := t.element = .char && t.isArray

def elementSize (t : FieldType) : Nat := t.element.size

/-- The bytes on the wire; an array of length 0 takes as many as one of length 1. -/
def totalSize (t : FieldType) : Nat := t.elementSize * max (t.length.getD 1) 1

/-- The primitive's name, marked by `[]` for an array. -/
def typeName (t : FieldType) : String :=
  if t.isArray then t.element.name ++ "[]" else t.element.name

theorem totalSize_pos (t : FieldType) : 0 < t.totalSize :=
  Nat.mul_pos t.element.size_pos (by omega)

end FieldType

end MavDialect
