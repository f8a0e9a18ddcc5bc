-- Laying out the fields of a message.  In payload order the fields tile the payload: each starts
-- where the one before it stops.  What the layout looks at is not changed by it, so a second
-- layout finds the same offsets.
import MavDialect.Proofs.PayloadOrder
import Mathlib.Algebra.GroupWithZero.Nat

namespace MavDialect

/-- The first byte after the field. -/
def Field.stop (f : Field) : Nat := f.offset + f.totalSize

/-- The two fields have no byte in common. -/
def Field.Apart (f g : Field) : Prop := f.stop ≤ g.offset ∨ g.stop ≤ f.offset

namespace Layout

/-! ## Tilings -/

/-- The fields take the bytes from `start` up to `stop`, each where the one before it stops, and
each at least one byte. -/
def Tiles : (start : Nat) → List Field → (stop : Nat) → Prop
  | start, [], stop => start = stop
  | start, f :: rest, stop => f.offset = start ∧ 0 < f.totalSize ∧ Tiles f.stop rest stop

theorem Tiles.start_le {start stop : Nat} {fields : List Field} (h : Tiles start fields stop) :
    ∀ f ∈ fields, start ≤ f.offset := by
  induction fields generalizing start with
  | nil => simp
  | cons f rest ih =>
    obtain ⟨hf, _, hrest⟩ := h
    intro g hg
    rcases List.mem_cons.1 hg with rfl | hg
    · omega
    · have := ih hrest g hg
      unfold Field.stop at this
      omega

/-- In a tiling each field stops before the ones after it start. -/
theorem Tiles.pairwise {start stop : Nat} {fields : List Field} (h : Tiles start fields stop) :
    fields.Pairwise fun f g => f.stop ≤ g.offset := by
  induction fields generalizing start with
  | nil => exact .nil
  | cons f rest ih =>
    obtain ⟨_, _, hrest⟩ := h
    exact List.pairwise_cons.2 ⟨hrest.start_le, ih hrest⟩

theorem Tiles.totalSize_pos {start stop : Nat} {fields : List Field}
    (h : Tiles start fields stop) : ∀ f ∈ fields, 0 < f.totalSize := by
  induction fields generalizing start with
  | nil => simp
  | cons f rest ih =>
    obtain ⟨_, hpos, hrest⟩ := h
    exact List.forall_mem_cons.2 ⟨hpos, ih hrest⟩

/-- In a tiling the offsets ascend. -/
theorem Tiles.ascending {start stop : Nat} {fields : List Field} (h : Tiles start fields stop) :
    fields.Pairwise fun f g => f.offset < g.offset := by
  apply h.pairwise.imp_of_mem
  intro f g hf _ hfg
  have := h.totalSize_pos f hf
  unfold Field.stop at hfg
  omega

/-! ## The offsets -/

/-- The field of a slot at the offset that is listed for its place. -/
def Slot.at (offsets : List (Nat × Nat)) (s : Slot) : Field :=
  { s.1 with offset := (offsets.lookup s.2).getD s.1.offset }

theorem placed_eq (fields : List Field) :
    placed fields = (slots fields).map (Slot.at (offsetsFrom 0 (wireSlots fields))) := rfl

theorem map_fst_offsetsFrom (start : Nat) (l : List Slot) :
    (offsetsFrom start l).map (·.1) = l.map (·.2) := by
  induction l generalizing start with
  | nil => rfl
  | cons s rest ih => simp [offsetsFrom, ih]

/-- A list of entries with distinct keys finds each of them. -/
theorem lookup_of_mem {l : List (Nat × Nat)} (hn : (l.map (·.1)).Nodup) {e : Nat × Nat}
    (he : e ∈ l) : l.lookup e.1 = some e.2 := by
  induction l with
  | nil => cases he
  | cons x rest ih =>
    obtain ⟨key, value⟩ := x
    obtain ⟨hx, hrest⟩ := List.nodup_cons.1 hn
    rcases List.mem_cons.1 he with rfl | he
    · exact List.lookup_cons_self
    · have hkey : e.1 ∈ rest.map (·.1) := List.mem_map_of_mem he
      have hne : e.1 ≠ key := fun h => hx (h ▸ hkey)
      rw [List.lookup_cons, beq_false_of_ne hne]
      exact ih hrest he

/-- Fields tile the payload when the offsets found for them are those that they are given one
after the other. -/
theorem tiles_map_at {offsets : List (Nat × Nat)} {start : Nat} {l : List Slot}
    (hfound : ∀ e ∈ offsetsFrom start l, offsets.lookup e.1 = some e.2)
    (hpos : ∀ s ∈ l, 0 < s.1.totalSize) :
    Tiles start (l.map (Slot.at offsets)) (endFrom start l) := by
  induction l generalizing start with
  | nil => rfl
  | cons s rest ih =>
    obtain ⟨hs, hrest⟩ := List.forall_mem_cons.1 hfound
    obtain ⟨hspos, hpos⟩ := List.forall_mem_cons.1 hpos
    have hoffset : (Slot.at offsets s).offset = start := by simp [Slot.at, hs]
    have hstop : (Slot.at offsets s).stop = start + s.1.totalSize := by
      rw [Field.stop, hoffset]
      rfl
    refine ⟨hoffset, hspos, ?_⟩
    rw [hstop]
    exact ih hrest hpos

theorem endFrom_eq (start : Nat) (l : List Slot) :
    endFrom start l = start + (l.map (·.1.totalSize)).sum := by
  induction l generalizing start with
  | nil => rfl
  | cons s rest ih =>
    rw [endFrom, ih, List.map_cons, List.sum_cons]
    omega

/-! ## What the layout looks at -/

/-- A change of slots that keeps what the layout looks at, carried into payload order. -/
theorem wireSlots_map {fields others : List Field} {change : Slot → Slot}
    (hslots : slots others = (slots fields).map change)
    (hext : ∀ s, (change s).1.isExtension = s.1.isExtension)
    (hsize : ∀ s, (change s).1.elementSize = s.1.elementSize) :
    wireSlots others = (wireSlots fields).map change := by
  have hbase : baseSlots others = (baseSlots fields).map change := by
    have hcomp : Slot.elementSize ∘ change = Slot.elementSize := funext hsize
    rw [baseSlots, baseSlots, hslots, List.filter_map]
    rw [← map_largestFirst, hcomp]
    simp only [Function.comp_def, hext]
  have hextension : extensionSlots others = (extensionSlots fields).map change := by
    rw [extensionSlots, extensionSlots, hslots, List.filter_map]
    simp only [Function.comp_def, hext]
  rw [wireSlots, wireSlots, hbase, hextension, List.map_append]

theorem offsetsFrom_map {change : Slot → Slot} (hplace : ∀ s, (change s).2 = s.2)
    (htotal : ∀ s, (change s).1.totalSize = s.1.totalSize) (start : Nat) (l : List Slot) :
    offsetsFrom start (l.map change) = offsetsFrom start l := by
  induction l generalizing start with
  | nil => rfl
  | cons s rest ih => simp [offsetsFrom, hplace, htotal, ih]

theorem endFrom_map {change : Slot → Slot}
    (htotal : ∀ s, (change s).1.totalSize = s.1.totalSize) (start : Nat) (l : List Slot) :
    endFrom start (l.map change) = endFrom start l := by
  induction l generalizing start with
  | nil => rfl
  | cons s rest ih => simp [endFrom, htotal, ih]

theorem zipIdx_map_slots {α : Type} (g : Slot → α) (fields : List Field) :
    ((slots fields).map g).zipIdx = (slots fields).map fun s => (g s, s.2) := by
  apply List.ext_getElem
  · simp [slots]
  · intro i _ _
    simp [slots]

/-! ## The layout of a list of fields -/

theorem slots_placed (fields : List Field) :
    slots (placed fields) =
      (slots fields).map fun s => (Slot.at (offsetsFrom 0 (wireSlots fields)) s, s.2) := by
  rw [placed_eq]
  exact zipIdx_map_slots _ fields

theorem wireSlots_placed (fields : List Field) :
    wireSlots (placed fields) =
      (wireSlots fields).map fun s => (Slot.at (offsetsFrom 0 (wireSlots fields)) s, s.2) :=
  wireSlots_map (slots_placed fields) (fun _ => rfl) (fun _ => rfl)

/-- A layout looks at nothing that a layout changes. -/
theorem placed_placed (fields : List Field) : placed (placed fields) = placed fields := by
  have hoffsets : offsetsFrom 0 (wireSlots (placed fields)) = offsetsFrom 0 (wireSlots fields) := by
    rw [wireSlots_placed]
    apply offsetsFrom_map <;> exact fun _ => rfl
  rw [placed_eq (placed fields), hoffsets, slots_placed, List.map_map, placed_eq]
  apply List.map_congr_left
  intro s _
  simp only [Function.comp_apply, Slot.at]
  cases (offsetsFrom 0 (wireSlots fields)).lookup s.2 <;> rfl

/-- Fields under other generated names are laid out as before. -/
theorem placed_map_name (rename : String → String) (fields : List Field) :
    placed (fields.map fun f => { f with name := rename f.name }) =
      (placed fields).map fun f => { f with name := rename f.name } := by
  have hslots : slots (fields.map fun f => { f with name := rename f.name }) =
      (slots fields).map fun s => ({ s.1 with name := rename s.1.name }, s.2) := by
    rw [slots, slots, List.zipIdx_map]
    rfl
  have hoffsets : offsetsFrom 0 (wireSlots (fields.map fun f => { f with name := rename f.name })) =
      offsetsFrom 0 (wireSlots fields) := by
    rw [wireSlots_map hslots (fun _ => rfl) (fun _ => rfl)]
    apply offsetsFrom_map <;> exact fun _ => rfl
  rw [placed_eq, placed_eq, hoffsets, hslots, List.map_map, List.map_map]
  rfl

theorem nodup_wirePlaces (fields : List Field) : (wirePlaces fields).Nodup := by
  have hperm := (wireSlots_perm fields).map (·.2)
  rw [wirePlaces, hperm.nodup_iff, slots, List.zipIdx_map_snd]
  exact List.nodup_range' ..

theorem payloadLength_placed (fields : List Field) :
    payloadLength (placed fields) = payloadLength fields := by
  rw [payloadLength, payloadLength, wireSlots_placed]
  apply endFrom_map
  exact fun _ => rfl

/-- The payload is as long as its fields together. -/
theorem payloadLength_eq_sum (fields : List Field) :
    payloadLength fields = (fields.map (·.totalSize)).sum := by
  have hperm := (wireFields_perm fields).map (·.totalSize)
  rw [payloadLength, endFrom_eq, Nat.zero_add, ← hperm.sum_nat, wireFields, List.map_map]
  rfl

/-- Laid out fields, taken in payload order, tile the payload. -/
theorem tiles_placed {fields : List Field} (hpos : ∀ f ∈ fields, 0 < f.totalSize) :
    Tiles 0 (wireFields (placed fields)) (payloadLength fields) := by
  have hkeys : ((offsetsFrom 0 (wireSlots fields)).map (·.1)).Nodup := by
    rw [map_fst_offsetsFrom]
    exact nodup_wirePlaces fields
  have htiles := tiles_map_at (fun e he => lookup_of_mem hkeys he) fun s hs =>
    hpos s.1 ((wireFields_perm fields).mem_iff.1 (List.mem_map_of_mem hs))
  rw [wireFields, wireSlots_placed, List.map_map]
  exact htiles

end Layout

end MavDialect
