-- Where the fields of a message lie in its payload.  Base fields go by descending size of their
-- elements, those of one size as declared; extension fields follow as declared.
import MavDialect.Message.Field

namespace MavDialect.Layout

/-! ## Order by size -/

variable {α β : Type}

/-- Puts `a` before the first item that is not larger. -/
def insertLargest (size : α → Nat) (a : α) : List α → List α
  | [] => [a]
  | b :: rest => if size b ≤ size a then a :: b :: rest else b :: insertLargest size a rest

/-- By descending size; items of one size keep their order. -/
def largestFirst (size : α → Nat) : List α → List α
  | [] => []
  | a :: rest => insertLargest size a (largestFirst size rest)

/-- No item comes or goes. -/
theorem insertLargest_perm (size : α → Nat) (a : α) (l : List α) :
    (insertLargest size a l).Perm (a :: l) := by
  induction l with
  | nil => exact .refl _
  | cons b rest ih =>
    simp only [insertLargest]
    split
    · exact .refl _
    · exact (ih.cons b).trans (.swap a b rest)

theorem largestFirst_perm (size : α → Nat) (l : List α) : (largestFirst size l).Perm l := by
  induction l with
  | nil => exact .refl _
  | cons a rest ih => exact (insertLargest_perm size a _).trans (ih.cons a)

theorem map_insertLargest (f : α → β) (size : β → Nat) (a : α) (l : List α) :
    (insertLargest (size ∘ f) a l).map f = insertLargest size (f a) (l.map f) := by
  induction l with
  | nil => rfl
  | cons b rest ih =>
    simp only [insertLargest, Function.comp_apply, List.map_cons]
    split <;> simp [ih]

/-- The order depends on the sizes alone. -/
theorem map_largestFirst (f : α → β) (size : β → Nat) (l : List α) :
    (largestFirst (size ∘ f) l).map f = largestFirst size (l.map f) := by
  induction l with
  | nil => rfl
  | cons a rest ih => simp [largestFirst, map_insertLargest, ih]

/-! ## Slots

A slot is a field together with its place in the declaration. -/

abbrev Slot := Field × Nat

def Slot.elementSize (s : Slot) : Nat := s.1.elementSize

def slots (fields : List Field) : List Slot := fields.zipIdx

/-- The base fields in payload order. -/
def baseSlots (fields : List Field) : List Slot :=
  largestFirst Slot.elementSize ((slots fields).filter fun s => !s.1.isExtension)

def extensionSlots (fields : List Field) : List Slot :=
  (slots fields).filter fun s => s.1.isExtension

/-- All fields in payload order. -/
def wireSlots (fields : List Field) : List Slot := baseSlots fields ++ extensionSlots fields

/-- The places of the base fields in the declaration, in payload order. -/
def basePlaces (fields : List Field) : List Nat := (baseSlots fields).map (·.2)

/-- The places of all fields in the declaration, in payload order. -/
def wirePlaces (fields : List Field) : List Nat := (wireSlots fields).map (·.2)

/-- The base fields in payload order. -/
def wireBaseFields (fields : List Field) : List Field := (baseSlots fields).map (·.1)

/-- All fields in payload order. -/
def wireFields (fields : List Field) : List Field := (wireSlots fields).map (·.1)

/-! ## Offsets -/

/-- Lays the slots out one after the other from `start` on: the place of each in the declaration
with its first byte. -/
def offsetsFrom (start : Nat) : List Slot → List (Nat × Nat)
  | [] => []
  | (f, place) :: rest => (place, start) :: offsetsFrom (start + f.totalSize) rest

/-- Gives every field its first byte in the payload. -/
def placed (fields : List Field) : List Field :=
  let offsets := offsetsFrom 0 (wireSlots fields)
  (slots fields).map fun (f, place) => { f with offset := (offsets.lookup place).getD f.offset }

/-- The first byte after slots laid out from `start` on. -/
def endFrom (start : Nat) : List Slot → Nat
  | [] => start
  | (f, _) :: rest => endFrom (start + f.totalSize) rest

/-- The first byte after the payload. -/
def payloadLength (fields : List Field) : Nat := endFrom 0 (wireSlots fields)

end MavDialect.Layout
