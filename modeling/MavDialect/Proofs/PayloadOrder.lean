-- The laws of the payload order.  The order by size is the stable sort: it descends, and each
-- class of one size keeps its order.  These two facts leave room for one list only.
import MavDialect.Message.Layout

namespace MavDialect.Layout

variable {α β : Type}

/-! ## The order by size -/

/-- No item is smaller than one after it. -/
def Descending (size : α → Nat) (l : List α) : Prop := l.Pairwise fun a b => size b ≤ size a

/-- The items of one size, in their order. -/
def sizeClass (size : α → Nat) (n : Nat) (l : List α) : List α := l.filter fun a => size a = n

/-- An item goes between the larger ones and the rest. -/
theorem insertLargest_append {size : α → Nat} {a : α} {larger rest : List α}
    (hl : ∀ b ∈ larger, ¬ size b ≤ size a) (hr : ∀ b ∈ rest, size b ≤ size a) :
    insertLargest size a (larger ++ rest) = larger ++ a :: rest := by
  induction larger with
  | nil =>
    cases rest with
    | nil => rfl
    | cons b rest => simp [insertLargest, hr b (by simp)]
  | cons b larger ih =>
    have hb : ¬ size b ≤ size a := hl b (by simp)
    have ih := ih fun c hc => hl c (by simp [hc])
    simp only [List.cons_append, insertLargest, if_neg hb, ih]

theorem notSmaller_trans (size : α → Nat) (a b c : α) (hab : decide (size b ≤ size a))
    (hbc : decide (size c ≤ size b)) : decide (size c ≤ size a) := by
  simp only [decide_eq_true_eq] at *
  omega

theorem notSmaller_total (size : α → Nat) (a b : α) :
    decide (size b ≤ size a) || decide (size a ≤ size b) := by
  simp only [Bool.or_eq_true, decide_eq_true_eq]
  omega

/-- The order by size is the stable sort of the standard library. -/
theorem largestFirst_eq_mergeSort (size : α → Nat) (l : List α) :
    largestFirst size l = l.mergeSort fun a b => size b ≤ size a := by
  have htrans := notSmaller_trans size
  have htotal := notSmaller_total size
  induction l with
  | nil => simp [largestFirst]
  | cons a l ih =>
    obtain ⟨larger, rest, hcons, hl, hlarger⟩ := List.mergeSort_cons htrans htotal a l
    have hsorted := List.pairwise_mergeSort htrans htotal (a :: l)
    rw [hcons, List.pairwise_append, List.pairwise_cons] at hsorted
    rw [largestFirst, ih, hl, hcons]
    apply insertLargest_append
    · intro b hb
      simpa using hlarger b hb
    · intro b hb
      simpa using hsorted.2.1.1 b hb

theorem descending_largestFirst (size : α → Nat) (l : List α) :
    Descending size (largestFirst size l) := by
  have h := List.pairwise_mergeSort (notSmaller_trans size) (notSmaller_total size) l
  rw [largestFirst_eq_mergeSort]
  exact h.imp fun hab => by simpa using hab

theorem sizeClass_insertLargest (size : α → Nat) (n : Nat) (a : α) (l : List α) :
    sizeClass size n (insertLargest size a l) = sizeClass size n (a :: l) := by
  unfold sizeClass
  induction l with
  | nil => rfl
  | cons b l ih =>
    simp only [insertLargest]
    split
    · rfl
    · -- `a` has passed `b`, so it is larger and in another class
      rename_i hba
      rw [List.filter_cons, ih]
      by_cases ha : size a = n <;> by_cases hb : size b = n <;> simp [ha, hb]
      omega

/-- Items of one size keep their order. -/
theorem sizeClass_largestFirst (size : α → Nat) (n : Nat) (l : List α) :
    sizeClass size n (largestFirst size l) = sizeClass size n l := by
  induction l with
  | nil => rfl
  | cons a l ih =>
    rw [largestFirst, sizeClass_insertLargest]
    unfold sizeClass at *
    rw [List.filter_cons, List.filter_cons, ih]

/-- The head of a descending list is at least as large as any item of a list with the same
classes. -/
theorem le_head_of_sizeClass_eq {size : α → Nat} {a b : α} {l r : List α}
    (hl : Descending size (a :: l))
    (h : ∀ n, sizeClass size n (a :: l) = sizeClass size n (b :: r)) : size b ≤ size a := by
  have hb : b ∈ sizeClass size (size b) (a :: l) := by
    rw [h]
    simp [sizeClass]
  rcases List.mem_cons.1 (List.mem_filter.1 hb).1 with rfl | hb
  · exact Nat.le_refl _
  · exact (List.pairwise_cons.1 hl).1 b hb

/-- A descending list is fixed by its classes. -/
theorem eq_of_sizeClass_eq {size : α → Nat} {l r : List α} (hl : Descending size l)
    (hr : Descending size r) (h : ∀ n, sizeClass size n l = sizeClass size n r) : l = r := by
  induction l generalizing r with
  | nil =>
    cases r with
    | nil => rfl
    | cons b r => simpa [sizeClass] using h (size b)
  | cons a l ih =>
    cases r with
    | nil => simpa [sizeClass] using h (size a)
    | cons b r =>
      have hsize : size a = size b :=
        Nat.le_antisymm (le_head_of_sizeClass_eq hr fun n => (h n).symm)
          (le_head_of_sizeClass_eq hl h)
      have hab : a = b := by
        have := h (size a)
        simp only [sizeClass, List.filter_cons, hsize, decide_true, if_true] at this
        exact (List.cons.inj this).1
      subst hab
      rw [ih (List.pairwise_cons.1 hl).2 (List.pairwise_cons.1 hr).2 fun n => ?_]
      have := h n
      unfold sizeClass at *
      rw [List.filter_cons, List.filter_cons] at this
      split at this
      · exact (List.cons.inj this).2
      · exact this

/-- The order by size is a function of the classes. -/
theorem largestFirst_eq_of_sizeClass_eq {size : α → Nat} {l r : List α}
    (h : ∀ n, sizeClass size n l = sizeClass size n r) :
    largestFirst size l = largestFirst size r := by
  apply eq_of_sizeClass_eq (descending_largestFirst size l) (descending_largestFirst size r)
  intro n
  rw [sizeClass_largestFirst, sizeClass_largestFirst, h]

/-! ## The fields in payload order -/

theorem map_fst_slots (fields : List Field) : (slots fields).map (·.1) = fields :=
  List.zipIdx_map_fst 0 fields

theorem map_fst_filter_slots (p : Field → Bool) (fields : List Field) :
    ((slots fields).filter fun s => p s.1).map (·.1) = fields.filter p := by
  conv => rhs; rw [← map_fst_slots fields]
  rw [List.filter_map]
  rfl

theorem wireBaseFields_eq (fields : List Field) :
    wireBaseFields fields =
      largestFirst (·.elementSize) (fields.filter fun f => !f.isExtension) := by
  unfold wireBaseFields baseSlots
  rw [← map_fst_filter_slots (fun f => !f.isExtension) fields]
  exact map_largestFirst (fun s : Slot => s.1) (·.elementSize) _

theorem wireFields_eq (fields : List Field) :
    wireFields fields = wireBaseFields fields ++ fields.filter (·.isExtension) := by
  rw [wireFields, wireSlots, List.map_append, ← map_fst_filter_slots (·.isExtension) fields]
  rfl

/-- No base field comes or goes. -/
theorem wireBaseFields_perm (fields : List Field) :
    (wireBaseFields fields).Perm (fields.filter fun f => !f.isExtension) :=
  wireBaseFields_eq fields ▸ largestFirst_perm _ _

/-- No slot comes or goes. -/
theorem wireSlots_perm (fields : List Field) : (wireSlots fields).Perm (slots fields) := by
  have hbase := largestFirst_perm Slot.elementSize ((slots fields).filter fun s => !s.1.isExtension)
  have hall := List.filter_append_perm (fun s : Slot => !s.1.isExtension) (slots fields)
  simp only [Bool.not_not] at hall
  exact (hbase.append_right _).trans hall

theorem wireFields_perm (fields : List Field) : (wireFields fields).Perm fields := by
  have h := (wireSlots_perm fields).map (·.1)
  rwa [map_fst_slots] at h

end MavDialect.Layout
