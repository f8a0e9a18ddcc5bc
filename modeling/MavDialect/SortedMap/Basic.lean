-- Finite maps kept as lists in ascending order of their keys.
-- Each write keeps the order, so a map has one representation whatever its history.

namespace MavDialect

/-- Entries in strictly ascending order of their keys, so that each key occurs once. -/
structure SortedMap (κ α : Type) [Ord κ] where
  entries : List (κ × α)
  ascending : entries.Pairwise fun a b => compare a.1 b.1 = .lt

namespace SortedMap

variable {κ α : Type} [Ord κ]

/-- The empty map. -/
def empty : SortedMap κ α := ⟨[], .nil⟩

instance : Inhabited (SortedMap κ α) := ⟨empty⟩

/-- The value under `key`, in a list of entries. -/
def find? (key : κ) : List (κ × α) → Option α
  | [] => none
  | (k, a) :: rest => if compare key k = .eq then some a else find? key rest

def get? (m : SortedMap κ α) (key : κ) : Option α := find? key m.entries

def contains (m : SortedMap κ α) (key : κ) : Bool := (m.get? key).isSome

def size (m : SortedMap κ α) : Nat := m.entries.length

def isEmpty (m : SortedMap κ α) : Bool := m.entries.isEmpty

/-- Puts the entry at its place and drops an older entry under the same key. -/
def put (key : κ) (a : α) : List (κ × α) → List (κ × α)
  | [] => [(key, a)]
  | (k, b) :: rest =>
    match compare key k with
    | .lt => (key, a) :: (k, b) :: rest
    | .eq => (key, a) :: rest
    | .gt => (k, b) :: put key a rest

/-- Puts the entry at its place, and gives the value of the older entry that it drops. -/
def exchange (key : κ) (a : α) : List (κ × α) → Option α × List (κ × α)
  | [] => (none, [(key, a)])
  | (k, b) :: rest =>
    match compare key k with
    | .lt => (none, (key, a) :: (k, b) :: rest)
    | .eq => (some b, (key, a) :: rest)
    | .gt =>
      let (old, rest) := exchange key a rest
      (old, (k, b) :: rest)

theorem exchange_snd (key : κ) (a : α) (l : List (κ × α)) : (exchange key a l).2 = put key a l := by
  induction l with
  | nil => rfl
  | cons x rest ih =>
    simp only [exchange, put]
    split
    · rfl
    · rfl
    · rw [ih]

theorem mem_put {key : κ} {a : α} {l : List (κ × α)} {e : κ × α} (h : e ∈ put key a l) :
    e = (key, a) ∨ e ∈ l := by
  induction l with
  | nil => simpa [put] using h
  | cons x rest ih =>
    simp only [put] at h
    split at h
    · simpa using h
    · rcases List.mem_cons.1 h with h | h
      · exact .inl h
      · exact .inr (List.mem_cons_of_mem _ h)
    · rcases List.mem_cons.1 h with h | h
      · exact .inr (h ▸ List.mem_cons_self)
      · exact (ih h).imp id (List.mem_cons_of_mem _)

variable [Std.TransOrd κ] [Std.LawfulEqOrd κ]

theorem put_ascending (key : κ) (a : α) {l : List (κ × α)}
    (h : l.Pairwise fun a b => compare a.1 b.1 = .lt) :
    (put key a l).Pairwise fun a b => compare a.1 b.1 = .lt := by
  induction l with
  | nil => simp [put]
  | cons x rest ih =>
    obtain ⟨hx, hrest⟩ := List.pairwise_cons.1 h
    simp only [put]
    split
    · rename_i hlt
      refine List.pairwise_cons.2 ⟨fun e he => ?_, h⟩
      rcases List.mem_cons.1 he with rfl | he
      · exact hlt
      · exact Std.TransCmp.lt_trans hlt (hx e he)
    · rename_i heq
      refine List.pairwise_cons.2 ⟨fun e he => ?_, hrest⟩
      rw [Std.LawfulEqCmp.eq_of_compare heq]
      exact hx e he
    · rename_i hgt
      refine List.pairwise_cons.2 ⟨fun e he => ?_, ih hrest⟩
      rcases mem_put he with rfl | he
      · exact Std.OrientedCmp.lt_of_gt hgt
      · exact hx e he

/-- Writes `a` under `key`; an earlier value there is replaced. -/
def insert (m : SortedMap κ α) (key : κ) (a : α) : SortedMap κ α :=
  ⟨put key a m.entries, put_ascending key a m.ascending⟩

/-- Writes `a` under `key`, and gives the value that it replaces. -/
def getThenInsert? (m : SortedMap κ α) (key : κ) (a : α) : Option α × SortedMap κ α :=
  let written := exchange key a m.entries
  (written.1, ⟨written.2, exchange_snd key a m.entries ▸ put_ascending key a m.ascending⟩)

/-- Writes every entry of the list, one after the other. -/
def insertAll (m : SortedMap κ α) (l : List (κ × α)) : SortedMap κ α :=
  l.foldl (fun m e => m.insert e.1 e.2) m

def ofList (l : List (κ × α)) : SortedMap κ α := empty.insertAll l

/-- Writes every entry of the second map into the first. -/
def merge (m n : SortedMap κ α) : SortedMap κ α := m.insertAll n.entries

end SortedMap

instance {κ α : Type} [Ord κ] [DecidableEq κ] [DecidableEq α] : DecidableEq (SortedMap κ α) :=
  fun a b => decidable_of_iff (a.entries = b.entries)
    ⟨fun h => by cases a; cases b; cases h; rfl, fun h => h ▸ rfl⟩

end MavDialect
