-- Natural alignment of base fields.  Nothing looks at it when a message is laid out.  It follows
-- from three facts: the sizes of elements are powers of two, a field takes a whole number of its
-- elements, and in payload order no field comes before one with larger elements.
import MavDialect.Proofs.MessageLayout

namespace MavDialect

namespace Primitive

theorem exists_size_eq_pow (p : Primitive) : ∃ k, p.size = 2 ^ k := by
  cases p with
  | char | int8 | uint8 | versionMarker => exact ⟨0, rfl⟩
  | int16 | uint16 => exact ⟨1, rfl⟩
  | int32 | uint32 | float => exact ⟨2, rfl⟩
  | int64 | uint64 | double => exact ⟨3, rfl⟩

/-- Of two sizes the smaller divides the larger. -/
theorem size_dvd_of_le {p q : Primitive} (h : p.size ≤ q.size) : p.size ∣ q.size := by
  obtain ⟨k, hk⟩ := p.exists_size_eq_pow
  obtain ⟨n, hn⟩ := q.exists_size_eq_pow
  rw [hk, hn] at h ⊢
  exact Nat.pow_dvd_pow 2 ((Nat.pow_le_pow_iff_right Nat.one_lt_two).1 h)

end Primitive

namespace Field

/-- The offset is a multiple of the size of one element. -/
def Aligned (f : Field) : Prop := f.elementSize ∣ f.offset

theorem Built.elementSize_dvd_of_le {f g : Field} (hf : f.Built) (hg : g.Built)
    (h : f.elementSize ≤ g.elementSize) : f.elementSize ∣ g.elementSize := by
  rw [hf.elementSize_eq, hg.elementSize_eq] at *
  exact Primitive.size_dvd_of_le h

/-- A field takes a whole number of its elements, an array of length 0 takes one. -/
theorem Built.elementSize_dvd_totalSize {f : Field} (hf : f.Built) :
    f.elementSize ∣ f.totalSize := by
  obtain ⟨t, ht⟩ := hf.hasType
  rw [ht.elementSize, ht.totalSize]
  exact Nat.dvd_mul_right _ _

end Field

namespace Layout

/-- Fields by descending size of their elements that tile a payload are aligned, when it starts at
a multiple of all their sizes.  Each stops at a multiple of the sizes after it. -/
theorem Tiles.aligned {start stop : Nat} {fields : List Field} (h : Tiles start fields stop)
    (hbuilt : ∀ f ∈ fields, f.Built) (hdescending : Descending (·.elementSize) fields)
    (hstart : ∀ f ∈ fields, f.elementSize ∣ start) : ∀ f ∈ fields, f.Aligned := by
  induction fields generalizing start with
  | nil => simp
  | cons f rest ih =>
    obtain ⟨hoffset, _, hrest⟩ := h
    obtain ⟨hf, hbuilt⟩ := List.forall_mem_cons.1 hbuilt
    obtain ⟨hlarger, hdescending⟩ := List.pairwise_cons.1 hdescending
    obtain ⟨hfstart, hstart⟩ := List.forall_mem_cons.1 hstart
    have hstop : ∀ g ∈ rest, g.elementSize ∣ f.stop := by
      intro g hg
      have hgf : g.elementSize ∣ f.elementSize :=
        (hbuilt g hg).elementSize_dvd_of_le hf (hlarger g hg)
      rw [Field.stop, hoffset]
      exact Nat.dvd_add (hstart g hg) (Nat.dvd_trans hgf hf.elementSize_dvd_totalSize)
    refine List.forall_mem_cons.2 ⟨?_, ih hrest hbuilt hdescending hstop⟩
    rw [Field.Aligned, hoffset]
    exact hfstart

/-- The first fields of a tiling tile what they take. -/
theorem Tiles.left {start stop : Nat} {fields others : List Field}
    (h : Tiles start (fields ++ others) stop) : ∃ middle, Tiles start fields middle := by
  induction fields generalizing start with
  | nil => exact ⟨start, rfl⟩
  | cons f rest ih =>
    obtain ⟨hoffset, hpos, hrest⟩ := h
    obtain ⟨middle, hmiddle⟩ := ih hrest
    exact ⟨middle, hoffset, hpos, hmiddle⟩

end Layout

namespace Message

/-- In payload order the base fields stand first, and the payload starts at 0. -/
theorem Settled.aligned {m : Message} (h : Settled m) : ∀ f ∈ m.baseFields, f.Aligned := by
  have hperm := Layout.wireBaseFields_perm m.fields
  have htiles := h.tiles
  rw [wireFields, Layout.wireFields_eq] at htiles
  obtain ⟨middle, hbase⟩ := htiles.left
  have hbuilt : ∀ f ∈ Layout.wireBaseFields m.fields, f.Built := fun f hf =>
    h.built f (List.mem_filter.1 (hperm.mem_iff.1 hf)).1
  have hdescending : Layout.Descending (·.elementSize) (Layout.wireBaseFields m.fields) := by
    rw [Layout.wireBaseFields_eq]
    exact Layout.descending_largestFirst _ _
  intro f hf
  exact hbase.aligned hbuilt hdescending (fun g _ => Nat.dvd_zero _) f (hperm.mem_iff.2 hf)

/-- Base fields are naturally aligned, whatever a message declares and in whatever order, and so
are those of every compiled dialect. -/
theorem base_fields_are_naturally_aligned :
    (∀ m : Message, m.Made → ∀ f ∈ m.baseFields, f.Aligned) ∧
    ∀ (options : Options) (name : String) (root : Element) (d : Dialect),
      compile options name root = .ok d → ∀ m ∈ d.messages, ∀ f ∈ m.baseFields, f.Aligned :=
  ⟨fun _ h => h.settled.aligned,
    fun _ _ _ _ h m hm => (made_of_compile h m hm).settled.aligned⟩

/-- Scalars and arrays of all sizes in no order, two arrays of length 0 among them. -/
def mixedDefinition : Element :=
  let field (name type : String) := Element.ofParts "field" [("name", name), ("type", type)] []
  .ofParts "mavlink" []
    [.ofParts "messages" []
      [.ofParts "message" [("id", "9"), ("name", "MIXED")]
        [field "kind" "uint8_t", field "tag" "char[0]", field "times" "uint64_t[2]",
          field "marks" "uint16_t[3]", field "gain" "float[0]", .ofParts "extensions" [] [],
          field "late" "double"]]]

/-- The extension field of the definition starts at no multiple of 8. -/
theorem fields_of_all_sizes_are_aligned :
    (∃ d, compile {} "sample" mixedDefinition = .ok d ∧
      (d.messages.map fun m => m.fields.map fun f => (f.elementSize, f.offset)) =
        [[(1, 26), (1, 27), (8, 0), (2, 20), (4, 16), (8, 28)]] ∧
      ∀ m ∈ d.messages, ∀ f ∈ m.baseFields, f.Aligned) ∧
    ∃ m : Message, m.Made ∧ m.fields.map (·.offset) = [4, 0] ∧ ∀ f ∈ m.baseFields, f.Aligned := by
  have hbuilt : ∀ f ∈ [Field.scalar "kind" .uint8, Field.scalar "gain" .float], f.Built :=
    List.forall_mem_cons.2 ⟨Field.built_scalar _ _,
      List.forall_mem_singleton.2 (Field.built_scalar _ _)⟩
  have hmade := Made.ofFields "PING" "Ping" 4 hbuilt
  obtain ⟨made, compiled⟩ := base_fields_are_naturally_aligned
  exact ⟨⟨_, rfl, rfl, compiled {} "sample" mixedDefinition _ rfl⟩, _, hmade, rfl, made _ hmade⟩

end Message

end MavDialect
