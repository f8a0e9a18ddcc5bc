-- The fingerprints through a history of operations.  Each operation writes, and a collection
-- forgets what was written before it; what is kept is the last write under each id.  From these
-- look-ups alone follow the number of the ids and the order in which they are visited.
import Mathlib.Data.List.Dedup
import Mathlib.Data.List.Induction
import MavDialect.Proofs.BatchOutcome

namespace MavDialect.Fingerprints

open SortedMap (lastWrite? lastWrite?_append exists_lastWrite?_iff)

/-! ## Histories -/

/-- One operation on the fingerprints. -/
inductive Update where
  | insert (id : Int) (fingerprint : UInt8)
  | merge (others : Fingerprints)
  /-- Begins anew with these writes. -/
  | collect (writes : List (Int × UInt8))

/-- What an operation writes, in order. -/
def Update.writes : Update → List (Int × UInt8)
  | insert id fingerprint => [(id, fingerprint)]
  | merge others => others.entries
  | collect writes => writes

def Update.isCollection : Update → Bool
  | collect _ => true
  | _ => false

def update (all : Fingerprints) : Update → Fingerprints
  | .insert id fingerprint => (all.getThenInsert? id fingerprint).2
  | .merge others => all.merge others
  | .collect writes => .ofList writes

/-- What a history makes of no fingerprints. -/
def after (updates : List Update) : Fingerprints := updates.foldl update .empty

/-- The operations from the last collection on; all of them, if there is none. -/
def sinceCollection : List Update → List Update
  | [] => []
  | u :: later => if later.any (·.isCollection) then sinceCollection later else u :: later

/-- The writes that no collection has made void. -/
def standingWrites (updates : List Update) : List (Int × UInt8) :=
  (sinceCollection updates).flatMap Update.writes

theorem sinceCollection_concat (updates : List Update) (u : Update) :
    sinceCollection (updates ++ [u]) =
      if u.isCollection then [u] else sinceCollection updates ++ [u] := by
  induction updates with
  | nil => cases h : u.isCollection <;> simp [sinceCollection]
  | cons first later ih =>
    cases h : u.isCollection with
    | true => simp [sinceCollection, ih, h]
    | false =>
      have hany : (later ++ [u]).any (·.isCollection) = later.any (·.isCollection) := by simp [h]
      rw [List.cons_append, sinceCollection, sinceCollection, hany, ih, h]
      cases later.any (·.isCollection) <;> rfl

theorem standingWrites_concat (updates : List Update) (u : Update) :
    standingWrites (updates ++ [u]) =
      if u.isCollection then u.writes else standingWrites updates ++ u.writes := by
  rw [standingWrites, sinceCollection_concat]
  cases u.isCollection <;> simp [standingWrites]

/-! ## Look-ups -/

/-- One operation: its own last write counts first, then what it leaves of the others. -/
theorem get?_update (all : Fingerprints) (u : Update) (id : Int) :
    (all.update u).get? id =
      (lastWrite? id u.writes).or (if u.isCollection then none else all.get? id) := by
  cases u with
  | insert key fingerprint =>
    rw [update, SortedMap.getThenInsert?_eq]
    exact SortedMap.get?_insertAll all [(key, fingerprint)] id
  | merge others =>
    rw [update, SortedMap.get?_merge, Update.writes, SortedMap.lastWrite?_entries]
    rfl
  | collect writes =>
    rw [update, SortedMap.get?_ofList]
    exact Option.or_none.symm

theorem after_concat (updates : List Update) (u : Update) :
    after (updates ++ [u]) = (after updates).update u := List.foldl_concat ..

/-- A whole history: the last standing write under an id is what is found there. -/
theorem get?_after (updates : List Update) (id : Int) :
    (after updates).get? id = lastWrite? id (standingWrites updates) := by
  induction updates using List.reverseRecOn with
  | nil => rfl
  | append_singleton updates u ih =>
    rw [after_concat, get?_update, standingWrites_concat, ih]
    cases u.isCollection with
    | true => exact Option.or_none
    | false => exact (lastWrite?_append ..).symm

/-- A collection makes the first insertion void, and its own second write under 2 replaces the
first. -/
example : (after [.insert 3 1, .collect [(2, 5), (-1, 6), (2, 7)], .insert 4 9]).entries =
    [(-1, 6), (2, 7), (4, 9)] := by decide +kernel

/-! ## What the look-ups decide -/

/-- The map of the last writes: it finds them, it counts the ids that were written, and it visits
each of them once, in ascending order, with its last write. -/
structure Keeps (writes : List (Int × UInt8)) (all : Fingerprints) : Prop where
  get?_eq : ∀ id, all.get? id = lastWrite? id writes
  size_eq : all.size = (writes.map (·.1)).dedup.length
  ascending : (all.entries.map (·.1)).Pairwise (· < ·)
  mem_ids : ∀ id, id ∈ all.entries.map (·.1) ↔ id ∈ writes.map (·.1)
  mem_entries : ∀ e, e ∈ all.entries ↔ lastWrite? e.1 writes = some e.2

theorem ascending_ids (all : Fingerprints) : (all.entries.map (·.1)).Pairwise (· < ·) :=
  List.pairwise_map.2 (all.ascending.imp Int.compare_eq_lt.1)

theorem keeps_of_get? {writes : List (Int × UInt8)} {all : Fingerprints}
    (h : ∀ id, all.get? id = lastWrite? id writes) : Keeps writes all := by
  have hentries (e : Int × UInt8) : e ∈ all.entries ↔ lastWrite? e.1 writes = some e.2 := by
    rw [← h, SortedMap.get?_eq_some_iff]
  have hids (id : Int) : id ∈ all.entries.map (·.1) ↔ id ∈ writes.map (·.1) := by
    rw [← exists_lastWrite?_iff, ← exists_lastWrite?_iff, SortedMap.lastWrite?_entries, h]
  have hnodup : (all.entries.map (·.1)).Nodup := (ascending_ids all).imp Int.ne_of_lt
  refine ⟨h, ?_, ascending_ids all, hids, hentries⟩
  calc all.size
      = (all.entries.map (·.1)).length := (List.length_map ..).symm
    _ = (writes.map (·.1)).dedup.length := by
      refine List.Perm.length_eq ((List.perm_ext_iff_of_nodup hnodup (List.nodup_dedup _)).2 ?_)
      exact fun id => (hids id).trans List.mem_dedup.symm

/-! ## Two look-ups of a dialect -/

/-- The one look-up takes the first message with an id, the other the last one. -/
theorem messageWithId?_eq_head? (d : Dialect) (id : Int) :
    d.messageWithId? id = (d.messages.filter (·.id == id)).head? := List.head?_filter.symm

theorem get?_fingerprints (d : Dialect) (id : Int) :
    d.fingerprints.get? id = (lastWithId? id d.messages).map (·.fingerprint) :=
  get?_ofMessages d.messages id

theorem isSome_get?_fingerprints (d : Dialect) (id : Int) :
    (d.fingerprints.get? id).isSome = (d.messageWithId? id).isSome := by
  rw [get?_fingerprints, Option.isSome_map, lastWithId?, messageWithId?_eq_head?]
  cases d.messages.filter (·.id == id) <;> simp

/-- Of one message the first is the last. -/
theorem get?_fingerprints_of_count_eq_one {d : Dialect} {id : Int}
    (h : (d.messages.map (·.id)).count id = 1) :
    d.fingerprints.get? id = (d.messageWithId? id).map (·.fingerprint) := by
  have hlength : (d.messages.filter (·.id == id)).length = 1 := by
    rw [← List.countP_eq_length_filter, ← h, List.count, List.countP_map]
    rfl
  obtain ⟨m, hm⟩ := List.length_eq_one_iff.1 hlength
  rw [get?_fingerprints, lastWithId?, messageWithId?_eq_head?, hm]
  rfl

/-- After every history the last write of each id since the last collection is kept, and an
insertion gives the one that it replaces.  Merging is associative, and merging nothing changes
nothing; merging a collection writes what was collected, in order.  Of a dialect the last message
with an id counts, which is the first one where the id occurs once. -/
theorem the_last_write_of_an_id_is_kept :
    (∀ updates : List Update, Keeps (standingWrites updates) (after updates)) ∧
    (∀ (updates : List Update) (id : Int) (fingerprint : UInt8),
      (after updates).getThenInsert? id fingerprint =
        (lastWrite? id (standingWrites updates), after (updates ++ [.insert id fingerprint]))) ∧
    (∀ a b c : Fingerprints, (a.merge b).merge c = a.merge (b.merge c)) ∧
    (∀ a : Fingerprints, a.merge .empty = a ∧ SortedMap.empty.merge a = a) ∧
    (∀ (a : Fingerprints) (writes : List (Int × UInt8)),
      a.merge (.ofList writes) = a.insertAll writes) ∧
    ∀ (d : Dialect) (id : Int),
      d.fingerprints.get? id = (lastWithId? id d.messages).map (·.fingerprint) ∧
      (d.fingerprints.get? id).isSome = (d.messageWithId? id).isSome ∧
      ((d.messages.map (·.id)).count id = 1 →
        d.fingerprints.get? id = (d.messageWithId? id).map (·.fingerprint)) := by
  refine ⟨fun updates => keeps_of_get? (get?_after updates), fun updates id fingerprint => ?_,
    SortedMap.merge_assoc, fun a => ⟨a.merge_empty, a.empty_merge⟩, SortedMap.merge_ofList,
    fun d id => ⟨get?_fingerprints d id, isSome_get?_fingerprints d id,
      get?_fingerprints_of_count_eq_one⟩⟩
  rw [after_concat, ← get?_after, update, SortedMap.getThenInsert?_eq]

/-- A message without fields. -/
def bareMessage (name : String) (id : Int) : Message := .ofFields name name id []

/-- Of three messages two share an id: the last of them counts, though the first one is found. -/
theorem an_id_that_occurs_once_has_one_message :
    let d : Dialect := ⟨"sample", none, none, [], [],
      [bareMessage "PING" 4, bareMessage "WAY" (-7), bareMessage "PONG" 4], []⟩
    (d.messages.map (·.id)).count (-7) = 1 ∧
      d.fingerprints.get? (-7) = (d.messageWithId? (-7)).map (·.fingerprint) ∧
      d.fingerprints.get? 4 ≠ (d.messageWithId? 4).map (·.fingerprint) := by
  intro d
  obtain ⟨_, _, _, _, _, hdialect⟩ := the_last_write_of_an_id_is_kept
  obtain ⟨_, _, honce⟩ := hdialect d (-7)
  have hcount : (d.messages.map (·.id)).count (-7) = 1 := by decide +kernel
  exact ⟨hcount, honce hcount, by decide +kernel⟩

end MavDialect.Fingerprints
