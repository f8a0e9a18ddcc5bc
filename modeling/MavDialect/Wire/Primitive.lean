-- The primitive types of message fields: a closed set, fixed by the protocol.

namespace MavDialect

inductive Primitive where
  | char
  | int8
  | uint8
  /-- A `uint8_t` that carries the protocol version. -/
  | versionMarker
  | int16
  | uint16
  | int32
  | uint32
  | float
  | int64
  | uint64
  | double
  deriving Repr, DecidableEq, Inhabited

/-- A declared type that names no primitive. -/
structure UnknownType where
  name : String
  deriving Repr, DecidableEq

def UnknownType.message (e : UnknownType) : String := "Unknown type \"" ++ e.name ++ "\""

namespace Primitive

/-- Every primitive, by ascending size. -/
def all : List Primitive :=
  [char, int8, uint8, versionMarker, int16, uint16, int32, uint32, float, int64, uint64, double]

theorem mem_all (p : Primitive) : p ∈ all := by cases p <;> decide

/-- Bytes of one value. -/
def size : Primitive → Nat
  | char | int8 | uint8 | versionMarker => 1
  | int16 | uint16 => 2
  | int32 | uint32 | float => 4
  | int64 | uint64 | double => 8

/-- The name that declares the type. -/
def name : Primitive → String
  | char => "char"
  | int8 => "int8_t"
  | uint8 => "uint8_t"
  | versionMarker => "uint8_t_mavlink_version"
  | int16 => "int16_t"
  | uint16 => "uint16_t"
  | int32 => "int32_t"
  | uint32 => "uint32_t"
  | float => "float"
  | int64 => "int64_t"
  | uint64 => "uint64_t"
  | double => "double"

/-- The name that enters a message's checksum.  The version marker counts as a plain
`uint8_t`. -/
def fingerprintName : Primitive → String
  | versionMarker => uint8.name
  | p => p.name

/-- The primitive with this name. -/
def ofName? (s : String) : Except UnknownType Primitive :=
  match all.find? (·.name == s) with
  | some p => .ok p
  | none => .error ⟨s⟩

theorem size_pos (p : Primitive) : 0 < p.size := by cases p <;> decide

theorem size_le (p : Primitive) : p.size ≤ 8 := by cases p <;> decide

/-- No two primitives share a name. -/
theorem name_inj : ∀ p q : Primitive, p.name = q.name → p = q := by
  intro p q
  cases p <;> cases q <;> simp [name]

end Primitive

end MavDialect
