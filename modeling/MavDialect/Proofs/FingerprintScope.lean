-- What the fingerprint depends on.  Of a list of fields it sees, for each size, the signatures of
-- the base fields of that size in the order of their declaration, and nothing else.
import Mathlib.Data.List.Forall2
import MavDialect.Message.Basic
import MavDialect.Proofs.BuiltField
import MavDialect.Proofs.Placement

namespace MavDialect.Fingerprint

open Layout (sizeClass largestFirst)

/-! ## What is seen of a field -/

/-- What a base field shows to the fingerprint: the name of its type, its own name, and its length
when it is an array. -/
def signature (f : Field) : String × String × Option Nat :=
  (f.elementType.fingerprintName, f.sourceName, f.arrayLength)

/-- The bytes of a signature. -/
def signatureBytes (s : String × String × Option Nat) : List UInt8 :=
  Text.utf8 s.1 ++ 32 :: Text.utf8 s.2.1 ++ [32] ++ s.2.2.toList.map UInt8.ofNat

theorem fieldBytes_eq (f : Field) : fieldBytes f = signatureBytes (signature f) := rfl

/-- The base fields whose elements have this size, as declared. -/
def baseClass (size : Nat) (fields : List Field) : List Field :=
  sizeClass (·.elementSize) size (fields.filter fun f => !f.isExtension)

/-- Size by size, the base fields of the two lists show the same signatures. -/
def SameSignatures (fields others : List Field) : Prop :=
  ∀ size, (baseClass size fields).map signature = (baseClass size others).map signature

/-- Under every name, the two lists give the same input and the same fingerprint, and so do the
messages that are made of them. -/
def Agree (fields others : List Field) : Prop :=
  ∀ sourceName, input sourceName fields = input sourceName others ∧
    ofFields sourceName fields = ofFields sourceName others ∧
    ∀ name id otherName otherId,
      (Message.ofFields sourceName name id fields).fingerprint =
        (Message.ofFields sourceName otherName otherId others).fingerprint

/-! ## The base fields in payload order -/

theorem input_eq (sourceName : String) (fields : List Field) :
    input sourceName fields = Text.utf8 sourceName ++
      32 :: ((Layout.wireBaseFields fields).map signature).flatMap signatureBytes := by
  rw [input, funext fieldBytes_eq, List.flatMap_map]

/-- A size together with a signature of that size. -/
def sized (f : Field) : Nat × String × String × Option Nat := (f.elementSize, signature f)

theorem sizeClass_map_sized (size : Nat) (fields : List Field) :
    sizeClass Prod.fst size ((fields.filter fun f => !f.isExtension).map sized) =
      ((baseClass size fields).map signature).map fun s => (size, s) := by
  rw [sizeClass, List.filter_map, List.map_map]
  apply List.map_congr_left
  intro f hf
  have hsize : f.elementSize = size := of_decide_eq_true (List.mem_filter.1 hf).2
  simp only [Function.comp_apply, sized, hsize]

/-- Equal classes are put into one order, since the order is made of sizes alone. -/
theorem wireSignatures_eq {fields others : List Field} (h : SameSignatures fields others) :
    (Layout.wireBaseFields fields).map signature =
      (Layout.wireBaseFields others).map signature := by
  have hmap (l : List Field) : (Layout.wireBaseFields l).map sized =
      largestFirst Prod.fst ((l.filter fun f => !f.isExtension).map sized) := by
    rw [Layout.wireBaseFields_eq, ← Layout.map_largestFirst]
    rfl
  have hsized : (Layout.wireBaseFields fields).map sized =
      (Layout.wireBaseFields others).map sized := by
    rw [hmap, hmap]
    apply Layout.largestFirst_eq_of_sizeClass_eq
    intro size
    rw [sizeClass_map_sized, sizeClass_map_sized, h size]
  have hsnd := congrArg (List.map Prod.snd) hsized
  rwa [List.map_map, List.map_map] at hsnd

theorem input_eq_of_sameSignatures {fields others : List Field} (h : SameSignatures fields others)
    (sourceName : String) : input sourceName fields = input sourceName others := by
  rw [input_eq, input_eq, wireSignatures_eq h]

/-! ## Changes that are not seen -/

/-- The fingerprint cannot tell the two fields apart. -/
structure Alike (f g : Field) : Prop where
  isExtension : f.isExtension = g.isExtension
  elementSize : f.elementSize = g.elementSize
  signature : signature f = signature g

theorem Alike.refl (f : Field) : Alike f f := ⟨rfl, rfl, rfl⟩

theorem sameSignatures_of_alike {fields others : List Field}
    (h : List.Forall₂ Alike fields others) : SameSignatures fields others := by
  intro size
  induction h with
  | nil => rfl
  | @cons f g fields others hfg _ ih =>
    obtain ⟨hext, hsize, hsig⟩ := hfg
    unfold baseClass sizeClass at *
    simp only [List.filter_cons, hext]
    split
    · simp only [List.filter_cons, hsize]
      split
      · rw [List.map_cons, List.map_cons, hsig, ih]
      · exact ih
    · exact ih

/-- The same field under another generated name, enum, unit, description or offset. -/
def Redressed (f g : Field) : Prop :=
  g = { f with
    name := g.name
    enumSourceName := g.enumSourceName
    enumName := g.enumName
    fieldType := g.fieldType
    units := g.units
    description := g.description
    offset := g.offset }

theorem Redressed.alike {f g : Field} (h : Redressed f g) : Alike f g := by
  rw [h]
  exact ⟨rfl, rfl, rfl⟩

/-- The layout of a message is not seen. -/
theorem sameSignatures_placed (fields : List Field) :
    SameSignatures (Layout.placed fields) fields := by
  apply sameSignatures_of_alike
  rw [Layout.placed_eq]
  conv => rhs; rw [← Layout.map_fst_slots fields]
  rw [List.forall₂_map_left_iff, List.forall₂_map_right_iff]
  exact List.forall₂_same.2 fun _ _ => ⟨rfl, rfl, rfl⟩

theorem agree_of_sameSignatures {fields others : List Field} (h : SameSignatures fields others) :
    Agree fields others := by
  intro sourceName
  have hplaced : SameSignatures (Layout.placed fields) (Layout.placed others) := fun size => by
    rw [sameSignatures_placed fields size, h size, sameSignatures_placed others size]
  refine ⟨input_eq_of_sameSignatures h _, ?_, fun name id otherName otherId => ?_⟩
  · rw [ofFields, ofFields, input_eq_of_sameSignatures h]
  · simp only [Message.ofFields, Message.withFields, ofFields,
      input_eq_of_sameSignatures hplaced]

/-- The same base field, declared once with the version marker and once without. -/
structure Unmarked (marked plain : Field) : Prop where
  marked_built : marked.Built
  plain_built : plain.Built
  marked_type : marked.elementType = .versionMarker
  plain_type : plain.elementType = .uint8
  isExtension : marked.isExtension = plain.isExtension
  sourceName : marked.sourceName = plain.sourceName
  arrayLength : marked.arrayLength = plain.arrayLength

theorem Unmarked.alike {marked plain : Field} (h : Unmarked marked plain) :
    Alike marked plain := by
  refine ⟨h.isExtension, ?_, ?_⟩
  · rw [h.marked_built.elementSize_eq, h.plain_built.elementSize_eq, h.marked_type, h.plain_type]
    rfl
  · rw [signature, signature, h.marked_type, h.plain_type, h.sourceName, h.arrayLength]
    rfl

/-! ## The law -/

/-- Lists with the same signatures, size by size, have the same fingerprint.  So it does not
matter how the sizes are interleaved, what extension fields there are and where they stand, whether
a field is the version marker, and what a field is called, described and typed in generated
code. -/
theorem the_fingerprint_sees_the_signatures_of_each_size :
    (∀ fields others, SameSignatures fields others → Agree fields others) ∧
    (∀ fields others, (∀ size, baseClass size fields = baseClass size others) →
      Agree fields others) ∧
    (∀ fields others : List Field,
      fields.filter (fun f => !f.isExtension) = others.filter (fun f => !f.isExtension) →
        Agree fields others) ∧
    (∀ before after marked plain, Unmarked marked plain →
      Agree (before ++ marked :: after) (before ++ plain :: after)) ∧
    (∀ fields others, List.Forall₂ Redressed fields others → Agree fields others) := by
  refine ⟨fun _ _ => agree_of_sameSignatures, ?_, ?_, ?_, ?_⟩
  · intro fields others h
    apply agree_of_sameSignatures
    intro size
    rw [h size]
  · intro fields others h
    apply agree_of_sameSignatures
    intro size
    rw [baseClass, baseClass, h]
  · intro before after marked plain h
    apply agree_of_sameSignatures
    apply sameSignatures_of_alike
    apply List.rel_append
    · exact List.forall₂_same.2 fun f _ => Alike.refl f
    · exact .cons h.alike (List.forall₂_same.2 fun f _ => Alike.refl f)
  · intro fields others h
    exact agree_of_sameSignatures (sameSignatures_of_alike (h.imp fun _ _ => Redressed.alike))

/-- A wide field may change places with a narrow one, an extension may come between them, the
version may be marked, and a field may have another name in generated code. -/
theorem changes_of_a_short_declaration_are_not_seen :
    let time := Field.scalar "time" .uint64
    let kind := Field.scalar "kind" .uint8
    let extra := { Field.scalar "extra" .float with isExtension := true }
    let marked := Field.scalar "version" .versionMarker
    let plain := Field.scalar "version" .uint8
    let renamed := { kind with name := "type", offset := 8 }
    (SameSignatures [kind, time] [time, extra, kind] ∧ Agree [kind, time] [time, extra, kind]) ∧
    ((∀ size, baseClass size [kind, time] = baseClass size [time, kind]) ∧
      Agree [kind, time] [time, kind]) ∧
    Agree [kind, time] [extra, kind, extra, time] ∧
    (Unmarked marked plain ∧ Agree [time, marked, kind] [time, plain, kind]) ∧
    (Redressed kind renamed ∧ Agree [kind, time] [renamed, time]) := by
  intro time kind extra marked plain renamed
  obtain ⟨bySignature, byClass, byBase, byMarker, byDress⟩ :=
    the_fingerprint_sees_the_signatures_of_each_size
  have hclass (size : Nat) : baseClass size [kind, time] = baseClass size [time, kind] := by
    by_cases h1 : kind.elementSize = size <;> by_cases h8 : time.elementSize = size
    · cases h1.trans h8.symm
    all_goals simp [baseClass, sizeClass, h1, h8, show kind.isExtension = false from rfl,
      show time.isExtension = false from rfl]
  have hextra (size : Nat) : baseClass size [time, extra, kind] = baseClass size [time, kind] :=
    rfl
  have hsame : SameSignatures [kind, time] [time, extra, kind] := fun size => by
    rw [hextra, hclass]
  have hmarked : Unmarked marked plain :=
    ⟨Field.built_scalar _ _, Field.built_scalar _ _, rfl, rfl, rfl, rfl, rfl⟩
  have hrenamed : Redressed kind renamed := rfl
  exact ⟨⟨hsame, bySignature _ _ hsame⟩, ⟨hclass, byClass _ _ hclass⟩, byBase _ _ rfl,
    ⟨hmarked, byMarker [time] [kind] _ _ hmarked⟩,
    hrenamed, byDress _ _ (.cons hrenamed (.cons rfl .nil))⟩

end MavDialect.Fingerprint
