-- A map as its look-ups: a look-up finds what was last written under its key, and two maps
-- with the same look-ups are equal, so nothing but the last writes leaves a trace.
import MavDialect.SortedMap.Basic

namespace MavDialect.SortedMap

/-! ## Writes, one after the other -/

section Writes

variable {κ α : Type} [DecidableEq κ]

/-- What is last written under `key`. -/
def lastWrite? (key : κ) (writes : List (κ × α)) : Option α :=
  (writes.filter fun e => e.1 = key).getLast?.map (·.2)

theorem lastWrite?_append (key : κ) (writes later : List (κ × α)) :
    lastWrite? key (writes ++ later) = (lastWrite? key later).or (lastWrite? key writes) := by
  simp [lastWrite?, List.getLast?_append, Option.map_or]

theorem lastWrite?_cons (key : κ) (e : κ × α) (rest : List (κ × α)) :
    lastWrite? key (e :: rest) =
      (lastWrite? key rest).or (if e.1 = key then some e.2 else none) := by
  rw [← List.singleton_append, lastWrite?_append]
  by_cases h : e.1 = key <;> simp [lastWrite?, h]

theorem exists_lastWrite?_iff {key : κ} {writes : List (κ × α)} :
    (∃ a, lastWrite? key writes = some a) ↔ key ∈ writes.map (·.1) := by
  rw [← Option.isSome_iff_exists, lastWrite?, Option.isSome_map, List.getLast?_isSome]
  simp [List.filter_eq_nil_iff]

end Writes

/-! ## Look-ups -/

variable {κ α : Type} [Ord κ] [Std.TransOrd κ] [Std.LawfulEqOrd κ]

omit [Std.TransOrd κ] in
theorem find?_put_self (key : κ) (a : α) (l : List (κ × α)) :
    find? key (put key a l) = some a := by
  induction l with
  | nil => simp [put, find?]
  | cons x rest ih =>
    simp only [put]
    split <;> simp_all [find?]

omit [Std.TransOrd κ] in
theorem find?_put_of_ne {key other : κ} (h : other ≠ key) (a : α) (l : List (κ × α)) :
    find? other (put key a l) = find? other l := by
  have hne : compare other key ≠ .eq := fun he => h (Std.LawfulEqCmp.eq_of_compare he)
  induction l with
  | nil => simp [put, find?, hne]
  | cons x rest ih =>
    simp only [put]
    split
    · simp [find?, hne]
    · rename_i heq
      have := Std.LawfulEqCmp.eq_of_compare heq
      simp [find?, ← this, hne]
    · simp [find?, ih]

omit [Std.TransOrd κ] [Std.LawfulEqOrd κ] in
@[simp]
theorem get?_empty (key : κ) : (empty : SortedMap κ α).get? key = none := rfl

@[simp]
theorem get?_insert_self (m : SortedMap κ α) (key : κ) (a : α) :
    (m.insert key a).get? key = some a := find?_put_self key a m.entries

theorem get?_insert_of_ne {key other : κ} (h : other ≠ key) (m : SortedMap κ α) (a : α) :
    (m.insert key a).get? other = m.get? other := find?_put_of_ne h a m.entries

omit [Std.TransOrd κ] [Std.LawfulEqOrd κ] in
/-- A key below every key of a list is not in it. -/
theorem find?_eq_none_of_lt {key : κ} {l : List (κ × α)}
    (h : ∀ e ∈ l, compare key e.1 = .lt) : find? key l = none := by
  induction l with
  | nil => rfl
  | cons x rest ih =>
    have hx := h x List.mem_cons_self
    simp [find?, hx, ih fun e he => h e (List.mem_cons_of_mem _ he)]

omit [Std.LawfulEqOrd κ] in
/-- A key below the first one of an ascending list is not in it. -/
theorem find?_eq_none_of_lt_first {key : κ} {x : κ × α} {rest : List (κ × α)}
    (h : (x :: rest).Pairwise fun a b => compare a.1 b.1 = .lt) (hlt : compare key x.1 = .lt) :
    find? key (x :: rest) = none := by
  refine find?_eq_none_of_lt fun e he => ?_
  rcases List.mem_cons.1 he with rfl | he
  · exact hlt
  · exact Std.TransCmp.lt_trans hlt (List.rel_of_pairwise_cons h he)

theorem eq_of_find?_eq {l r : List (κ × α)}
    (hl : l.Pairwise fun a b => compare a.1 b.1 = .lt)
    (hr : r.Pairwise fun a b => compare a.1 b.1 = .lt)
    (h : ∀ key, find? key l = find? key r) : l = r := by
  induction l generalizing r with
  | nil =>
    cases r with
    | nil => rfl
    | cons y ys => simpa [find?] using h y.1
  | cons x xs ih =>
    obtain ⟨hx, hxs⟩ := List.pairwise_cons.1 hl
    cases r with
    | nil => simpa [find?] using h x.1
    | cons y ys =>
      obtain ⟨hy, hys⟩ := List.pairwise_cons.1 hr
      have hkey : x.1 = y.1 := by
        cases hc : compare x.1 y.1 with
        | eq => exact Std.LawfulEqCmp.eq_of_compare hc
        | lt =>
          have := h x.1
          rw [find?_eq_none_of_lt_first hr hc] at this
          simp [find?] at this
        | gt =>
          have := h y.1
          rw [find?_eq_none_of_lt_first hl (Std.OrientedCmp.lt_of_gt hc)] at this
          simp [find?] at this
      have hval : x.2 = y.2 := by
        have := h x.1
        simpa [find?, hkey] using this
      have hxy : x = y := Prod.ext hkey hval
      subst hxy
      congr 1
      refine ih hxs hys fun key => ?_
      have := h key
      by_cases hk : compare key x.1 = .eq
      · have hk' := Std.LawfulEqCmp.eq_of_compare hk
        rw [hk', find?_eq_none_of_lt hx, find?_eq_none_of_lt hy]
      · simpa [find?, hk] using this

/-- Maps with the same look-ups are equal. -/
theorem ext_get? {m n : SortedMap κ α} (h : ∀ key, m.get? key = n.get? key) : m = n := by
  have : m.entries = n.entries := eq_of_find?_eq m.ascending n.ascending h
  cases m; cases n; cases this; rfl

/-! ## Entries -/

omit [Std.TransOrd κ] in
/-- In an ascending list no entry stands behind another one with its key. -/
theorem find?_eq_some_iff {key : κ} {a : α} {l : List (κ × α)}
    (h : l.Pairwise fun a b => compare a.1 b.1 = .lt) : find? key l = some a ↔ (key, a) ∈ l := by
  induction l with
  | nil => simp [find?]
  | cons x rest ih =>
    obtain ⟨k, b⟩ := x
    obtain ⟨hx, hrest⟩ := List.pairwise_cons.1 h
    by_cases hkey : key = k
    · subst hkey
      have hnot : (key, a) ∉ rest := fun he => by simpa using hx _ he
      simp [find?, hnot, eq_comm]
    · have hne : compare key k ≠ .eq := fun heq => hkey (Std.LawfulEqCmp.eq_of_compare heq)
      simp [find?, hne, ih hrest, hkey]

omit [Std.TransOrd κ] in
theorem get?_eq_some_iff {m : SortedMap κ α} {key : κ} {a : α} :
    m.get? key = some a ↔ (key, a) ∈ m.entries := find?_eq_some_iff m.ascending

omit [Std.LawfulEqOrd κ] in
/-- The walk to the place of the new entry meets the older one, if there is one. -/
theorem exchange_fst (key : κ) (a : α) {l : List (κ × α)}
    (h : l.Pairwise fun a b => compare a.1 b.1 = .lt) : (exchange key a l).1 = find? key l := by
  induction l with
  | nil => rfl
  | cons x rest ih =>
    simp only [exchange]
    split
    · rename_i hlt
      exact (find?_eq_none_of_lt_first h hlt).symm
    · rename_i heq
      rw [find?, if_pos heq]
    · rename_i hgt
      rw [ih (List.pairwise_cons.1 h).2, find?, if_neg (by rw [hgt]; decide)]

theorem getThenInsert?_eq (m : SortedMap κ α) (key : κ) (a : α) :
    m.getThenInsert? key a = (m.get? key, m.insert key a) := by
  refine Prod.ext (exchange_fst key a m.ascending) ?_
  simp only [getThenInsert?, insert, exchange_snd]

/-! ## Many writes -/

variable [DecidableEq κ]

theorem get?_insertAll (m : SortedMap κ α) (writes : List (κ × α)) (key : κ) :
    (m.insertAll writes).get? key = (lastWrite? key writes).or (m.get? key) := by
  induction writes generalizing m with
  | nil => rfl
  | cons e rest ih =>
    rw [lastWrite?_cons, Option.or_assoc]
    refine (ih (m.insert e.1 e.2)).trans ?_
    by_cases h : e.1 = key
    · rw [if_pos h, ← h, get?_insert_self]
      rfl
    · rw [if_neg h, get?_insert_of_ne (Ne.symm h)]
      rfl

theorem get?_ofList (writes : List (κ × α)) (key : κ) :
    (ofList writes).get? key = lastWrite? key writes := by
  rw [ofList, get?_insertAll, get?_empty, Option.or_none]

omit [Std.TransOrd κ] in
/-- The entries of a map are writes under different keys. -/
theorem lastWrite?_entries (m : SortedMap κ α) (key : κ) :
    lastWrite? key m.entries = m.get? key := by
  obtain ⟨entries, ascending⟩ := m
  show lastWrite? key entries = find? key entries
  induction entries with
  | nil => rfl
  | cons e rest ih =>
    obtain ⟨he, hrest⟩ := List.pairwise_cons.1 ascending
    rw [lastWrite?_cons, ih hrest]
    by_cases h : e.1 = key
    · have hnone : find? key rest = none := find?_eq_none_of_lt (h ▸ he)
      simp [find?, h, hnone]
    · have hne : compare key e.1 ≠ .eq := fun heq => h (Std.LawfulEqCmp.eq_of_compare heq).symm
      simp [find?, h, hne]

/-- A map is what its entries make when they are written. -/
theorem ofList_entries (m : SortedMap κ α) : ofList m.entries = m :=
  ext_get? fun key => by rw [get?_ofList, lastWrite?_entries]

/-- In a merge the second map has the last word. -/
theorem get?_merge (m n : SortedMap κ α) (key : κ) :
    (m.merge n).get? key = (n.get? key).or (m.get? key) := by
  rw [merge, get?_insertAll, lastWrite?_entries]

theorem merge_assoc (l m n : SortedMap κ α) : (l.merge m).merge n = l.merge (m.merge n) :=
  ext_get? fun key => by simp only [get?_merge, Option.or_assoc]

omit [DecidableEq κ] in
@[simp]
theorem merge_empty (m : SortedMap κ α) : m.merge empty = m := rfl

@[simp]
theorem empty_merge (m : SortedMap κ α) : empty.merge m = m := ofList_entries m

/-- Merging a map that was just written is writing the same again. -/
theorem merge_ofList (m : SortedMap κ α) (writes : List (κ × α)) :
    m.merge (ofList writes) = m.insertAll writes :=
  ext_get? fun key => by rw [get?_merge, get?_ofList, get?_insertAll]

end MavDialect.SortedMap
