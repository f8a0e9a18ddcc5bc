-- Fields as they come about: declared with a type, then changed by any of the builders.  However
-- a field is built, what it takes on the wire are the facts of one declared type.
import MavDialect.Message.Field

namespace MavDialect

namespace FieldType

theorem none_fits : ∀ n ∈ (none : Option Nat), n ≤ maxArrayLength := by simp

/-- A primitive that is not repeated. -/
def single (p : Primitive) : FieldType := ⟨p, none, none_fits⟩

/-- The name of each primitive declares it. -/
theorem parse_name (p : Primitive) : parse p.name = .ok (single p) := by
  cases p <;> rfl

end FieldType

namespace Field

/-- The element, its size, the length and the total size are those of `t`. -/
structure HasType (f : Field) (t : FieldType) : Prop where
  elementType : f.elementType = t.element
  elementSize : f.elementSize = t.elementSize
  arrayLength : f.arrayLength = t.length
  totalSize : f.totalSize = t.totalSize

/-- A field that was declared, and then changed in any order.  It may also be a field of another
message, with the offset and the generated name it had there. -/
inductive Built : Field → Prop
  | declare {f : Field} (sourceName declaredType : String) :
      Field.declare sourceName declaredType = .ok f → Built f
  | asEnum {f : Field} (sourceName className : String) :
      Built f → Built (f.asEnum sourceName className)
  | extension {f : Field} (isExtension : Bool) : Built f → Built { f with isExtension }
  | units {f : Field} (units : String) : Built f → Built { f with units }
  | description {f : Field} (description : List String) : Built f → Built { f with description }
  | offset {f : Field} (offset : Nat) : Built f → Built { f with offset }
  | name {f : Field} (name : String) : Built f → Built { f with name }

theorem hasType_ofType (sourceName declaredType : String) (t : FieldType) :
    HasType (ofType sourceName declaredType t) t := ⟨rfl, rfl, rfl, rfl⟩

/-- A declaration yields a field of the type that it names. -/
theorem eq_ofType_of_declare {sourceName declaredType : String} {f : Field}
    (h : declare sourceName declaredType = .ok f) :
    ∃ t, FieldType.parse declaredType = .ok t ∧ f = ofType sourceName declaredType t := by
  unfold declare at h
  cases hp : FieldType.parse declaredType with
  | error e =>
    rw [hp] at h
    cases h
  | ok t =>
    rw [hp] at h
    cases h
    exact ⟨t, rfl, rfl⟩

theorem Built.hasType {f : Field} (h : f.Built) : ∃ t, f.HasType t := by
  induction h with
  | declare sourceName declaredType hd =>
    obtain ⟨t, _, rfl⟩ := eq_ofType_of_declare hd
    exact ⟨t, hasType_ofType _ _ t⟩
  | asEnum _ _ _ ih | extension _ _ ih | units _ _ ih | description _ _ ih | offset _ _ ih
  | name _ _ ih =>
    obtain ⟨t, h1, h2, h3, h4⟩ := ih
    exact ⟨t, h1, h2, h3, h4⟩

/-- A base field that is no array. -/
def scalar (sourceName : String) (p : Primitive) : Field :=
  ofType sourceName p.name (.single p)

theorem built_scalar (sourceName : String) (p : Primitive) : (scalar sourceName p).Built := by
  refine .declare sourceName p.name ?_
  rw [declare, FieldType.parse_name]
  rfl

theorem Built.elementSize_eq {f : Field} (h : f.Built) : f.elementSize = f.elementType.size := by
  obtain ⟨t, ht⟩ := h.hasType
  rw [ht.elementSize, ht.elementType]
  rfl

theorem Built.totalSize_pos {f : Field} (h : f.Built) : 0 < f.totalSize := by
  obtain ⟨t, ht⟩ := h.hasType
  rw [ht.totalSize]
  exact t.totalSize_pos

/-- An array's length fits one byte. -/
theorem Built.length_le {f : Field} (h : f.Built) : ∀ n ∈ f.arrayLength, n ≤ maxArrayLength := by
  obtain ⟨t, ht⟩ := h.hasType
  rw [ht.arrayLength]
  exact t.length_le

end Field

end MavDialect
