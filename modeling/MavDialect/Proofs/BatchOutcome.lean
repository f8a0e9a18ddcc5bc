-- A batch is a walk over its sources.  It ends well when each of them does, and then it holds what
-- each yields by itself.  Under every id stands the fingerprint of the last message that has it.
-- Else the batch ends in the error of its first source that has one, under the name of that source.
import MavDialect.Batch
import MavDialect.Proofs.CompileStages
import MavDialect.Proofs.Outcome
import MavDialect.SortedMap.Lookup

namespace MavDialect

open Outcome
open SortedMap (lastWrite? lastWrite?_append)

/-! ## Fingerprints of several dialects -/

/-- The last of the messages with this id. -/
def lastWithId? (id : Int) (messages : List Message) : Option Message :=
  (messages.filter (·.id == id)).getLast?

namespace Fingerprints

theorem lastWrite?_messages (id : Int) (messages : List Message) :
    lastWrite? id (messages.map fun m => (m.id, m.fingerprint)) =
      (lastWithId? id messages).map (·.fingerprint) := by
  rw [lastWrite?, lastWithId?, List.filter_map, List.getLast?_map, Option.map_map]
  rfl

theorem get?_ofMessages (messages : List Message) (id : Int) :
    (ofMessages messages).get? id = (lastWithId? id messages).map (·.fingerprint) := by
  rw [ofMessages, SortedMap.get?_ofList, lastWrite?_messages]

theorem lastWithId?_append (id : Int) (messages later : List Message) :
    lastWithId? id (messages ++ later) =
      (lastWithId? id later).or (lastWithId? id messages) := by
  rw [lastWithId?, List.filter_append, List.getLast?_append]
  rfl

/-- Dialect by dialect, the last message with an id counts. -/
theorem get?_foldl_merge (dialects : List Dialect) (all : Fingerprints) (id : Int) :
    (dialects.foldl (fun all d => all.merge d.fingerprints) all).get? id =
      ((lastWithId? id (dialects.flatMap (·.messages))).map (·.fingerprint)).or (all.get? id) := by
  induction dialects generalizing all with
  | nil => rfl
  | cons d rest ih =>
    rw [List.foldl_cons, ih, SortedMap.get?_merge, Dialect.fingerprints, get?_ofMessages,
      List.flatMap_cons, lastWithId?_append, Option.map_or, Option.or_assoc]

theorem get?_ofDialects (dialects : List Dialect) (id : Int) :
    (ofDialects dialects).get? id =
      (lastWithId? id (dialects.flatMap (·.messages))).map (·.fingerprint) := by
  rw [ofDialects, get?_foldl_merge, SortedMap.get?_empty, Option.or_none]

theorem ofDialects_append (dialects others : List Dialect) :
    ofDialects (dialects ++ others) = (ofDialects dialects).merge (ofDialects others) := by
  apply SortedMap.ext_get?
  intro id
  rw [SortedMap.get?_merge, get?_ofDialects, get?_ofDialects, get?_ofDialects,
    List.flatMap_append, lastWithId?_append, Option.map_or]

end Fingerprints

namespace Batch

/-! ## The walk -/

/-- Compiles one source; its error comes under its name. -/
def compileSource (options : Options) (s : Source) : Except BatchError Dialect :=
  (compile options s.name s.root).mapError fun cause => ⟨s.name, cause⟩

theorem compileSource_eq_ok_iff {options : Options} {s : Source} {d : Dialect} :
    compileSource options s = .ok d ↔ compile options s.name s.root = .ok d := by
  unfold compileSource
  cases compile options s.name s.root <;> simp [Except.mapError]

theorem compileSource_eq_error_iff {options : Options} {s : Source} {e : BatchError} :
    compileSource options s = .error e ↔
      e.dialect = s.name ∧ compile options s.name s.root = .error e.cause := by
  obtain ⟨name, cause⟩ := e
  unfold compileSource
  cases compile options s.name s.root with
  | ok d => simp [Except.mapError]
  | error found => simp [Except.mapError, eq_comm]

theorem gather_eq_mapM (options : Options) (sources : List Source) :
    gather (sources.map fun s => (s.name, compile options s.name s.root)) =
      sources.mapM (compileSource options) := by
  induction sources with
  | nil => rfl
  | cons s rest ih =>
    rw [List.map_cons, List.mapM_cons, compileSource]
    cases compile options s.name s.root with
    | error cause => rfl
    | ok d =>
      rw [gather, ih]
      cases rest.mapM (compileSource options) <;> rfl

theorem compileBatch_eq (options : Options) (sources : List Source) :
    compileBatch options sources =
      (sources.mapM (compileSource options)).map fun dialects =>
        ⟨dialects, Fingerprints.ofDialects dialects⟩ := by
  have hwalk := gather_eq_mapM options sources
  unfold compileBatch traced
  dsimp only
  rw [List.map_map]
  split
  · rename_i e hfailed
    rw [hwalk.symm.trans hfailed]
    rfl
  · rename_i dialects hdone
    rw [hwalk.symm.trans hdone]
    rfl

/-! ## The law -/

/-- What each source yields by itself, and under each id the fingerprint of the last message with
that id. -/
structure Gathers (options : Options) (sources : List Source) (b : Batch) : Prop where
  dialects : List.Forall₂ (fun s d => compile options s.name s.root = .ok d) sources b.dialects
  fingerprints : ∀ id, b.fingerprints.get? id =
    (lastWithId? id (b.dialects.flatMap (·.messages))).map (·.fingerprint)

/-- The error of the first source that cannot be compiled, under the name of that source. -/
def FirstFailure (options : Options) (sources : List Source) (e : BatchError) : Prop :=
  ∃ before s after, sources = before ++ s :: after ∧
    (∀ t ∈ before, ∃ d, compile options t.name t.root = .ok d) ∧
    e.dialect = s.name ∧ compile options s.name s.root = .error e.cause

theorem compileBatch_eq_ok_iff {options : Options} {sources : List Source} {b : Batch} :
    compileBatch options sources = .ok b ↔ Gathers options sources b := by
  rw [compileBatch_eq, map_eq_ok_iff]
  simp only [mapM_eq_ok_iff_forall₂, compileSource_eq_ok_iff]
  constructor
  · rintro ⟨dialects, hdialects, rfl⟩
    exact ⟨hdialects, Fingerprints.get?_ofDialects dialects⟩
  · rintro ⟨hdialects, hfingerprints⟩
    -- the look-ups leave no choice for the fingerprints
    have hsame : Fingerprints.ofDialects b.dialects = b.fingerprints := SortedMap.ext_get? fun id =>
      (Fingerprints.get?_ofDialects b.dialects id).trans (hfingerprints id).symm
    exact ⟨b.dialects, hdialects, by rw [hsame]⟩

theorem exists_compileBatch_eq_ok_iff {options : Options} {sources : List Source} :
    (∃ b, compileBatch options sources = .ok b) ↔
      ∀ s ∈ sources, ∃ d, compile options s.name s.root = .ok d := by
  simp only [compileBatch_eq, map_eq_ok_iff, ← compileSource_eq_ok_iff, ← exists_mapM_eq_ok_iff]
  constructor
  · rintro ⟨_, dialects, hdialects, _⟩
    exact ⟨dialects, hdialects⟩
  · rintro ⟨dialects, hdialects⟩
    exact ⟨_, dialects, hdialects, rfl⟩

theorem compileBatch_eq_error_iff {options : Options} {sources : List Source} {e : BatchError} :
    compileBatch options sources = .error e ↔ FirstFailure options sources e := by
  simp only [FirstFailure, ← compileSource_eq_ok_iff, ← compileSource_eq_error_iff,
    ← mapM_eq_error_iff, compileBatch_eq]
  cases sources.mapM (compileSource options) <;> simp [Except.map]

/-- Batches one after the other make one batch. -/
theorem Gathers.append {options : Options} {sources others : List Source} {b c : Batch}
    (hb : Gathers options sources b) (hc : Gathers options others c) :
    Gathers options (sources ++ others)
      ⟨b.dialects ++ c.dialects, b.fingerprints.merge c.fingerprints⟩ := by
  refine ⟨List.rel_append hb.dialects hc.dialects, fun id => ?_⟩
  rw [SortedMap.get?_merge, hb.fingerprints, hc.fingerprints, List.flatMap_append,
    Fingerprints.lastWithId?_append, Option.map_or]

theorem unknownType?_eq_some_iff {e : CompileError} {t : UnknownType} :
    e.unknownType? = some t ↔ ∃ message field, e = .fieldType message field (.unknown t) := by
  unfold CompileError.unknownType?
  split
  · simp
  · rename_i hother
    constructor
    · intro h
      cases h
    · rintro ⟨message, field, rfl⟩
      exact absurd rfl (hother message field t)

/-- A batch ends well exactly when each of its sources does, with what they yield by themselves.
Batches one after the other are one batch, whose fingerprints are merged.  A batch that fails names
its first source that does, with the error which that source has alone. -/
theorem a_batch_is_its_dialects_or_its_first_failure (options : Options) (sources : List Source) :
    ((∃ b, compileBatch options sources = .ok b) ↔
      ∀ s ∈ sources, ∃ d, compile options s.name s.root = .ok d) ∧
    (∀ b, compileBatch options sources = .ok b ↔ Gathers options sources b) ∧
    (∀ others b c, compileBatch options sources = .ok b → compileBatch options others = .ok c →
      compileBatch options (sources ++ others) =
        .ok ⟨b.dialects ++ c.dialects, b.fingerprints.merge c.fingerprints⟩) ∧
    (∀ e, compileBatch options sources = .error e ↔ FirstFailure options sources e) ∧
    ∀ (e : BatchError) (t : UnknownType), e.unknownType? = some t ↔
      ∃ message field, e.cause = .fieldType message field (.unknown t) := by
  refine ⟨exists_compileBatch_eq_ok_iff, fun b => compileBatch_eq_ok_iff, ?_,
    fun e => compileBatch_eq_error_iff, fun e t => unknownType?_eq_some_iff⟩
  intro others b c hb hc
  exact compileBatch_eq_ok_iff.2
    ((compileBatch_eq_ok_iff.1 hb).append (compileBatch_eq_ok_iff.1 hc))

/-- A source with messages of one field, by their ids, names and types. -/
def sampleSource (name : String) (messages : List (String × String × String)) : Source where
  name
  root := .ofParts "mavlink" []
    [.ofParts "messages" [] (messages.map fun (id, name, type) =>
      .ofParts "message" [("id", id), ("name", name)]
        [.ofParts "field" [("name", "value"), ("type", type)] []])]

/-- An id occurs three times, twice in the first dialect; the last message counts.  A type that is
unknown stops the batch, whatever comes after it. -/
theorem an_id_repeats_and_a_type_is_unknown :
    let near := sampleSource "near" [("4", "PING", "float"), ("4", "PONG", "char[4]")]
    let far := sampleSource "far" [("-1", "WAY", "int8_t"), ("4", "ECHO", "double")]
    let bad := sampleSource "bad" [("5", "SPIN", "float"), ("6", "TURN", "uint24_t")]
    (∃ b c, compileBatch {} [near] = .ok b ∧ compileBatch {} [far] = .ok c ∧
      b.fingerprints.get? 4 = some 170 ∧ c.fingerprints.get? 4 = some 183 ∧
      ∃ both, compileBatch {} [near, far] = .ok both ∧ both.dialects = b.dialects ++ c.dialects ∧
        both.fingerprints = b.fingerprints.merge c.fingerprints ∧
        both.fingerprints.get? 4 = some 183) ∧
    ∃ e, compileBatch {} [near, bad, far, bad] = .error e ∧ e.dialect = "bad" ∧
      e.unknownType? = some ⟨"uint24_t"⟩ := by
  intro near far bad
  obtain ⟨_, _, hmerged, _, _⟩ := a_batch_is_its_dialects_or_its_first_failure {} [near]
  obtain ⟨_, _, _, hfailed, hunknown⟩ :=
    a_batch_is_its_dialects_or_its_first_failure {} [near, bad, far, bad]
  have hnear : compileBatch {} [near] = .ok _ := rfl
  have hfar : compileBatch {} [far] = .ok _ := rfl
  have hboth := hmerged [far] _ _ hnear hfar
  refine ⟨⟨_, _, hnear, hfar, ?_, ?_, _, hboth, rfl, rfl, ?_⟩, ?_⟩
  · decide +kernel
  · decide +kernel
  · decide +kernel
  · refine ⟨⟨"bad", .fieldType "TURN" "value" (.unknown ⟨"uint24_t"⟩)⟩, ?_, rfl, ?_⟩
    · exact (hfailed _).2 ⟨[near], bad, [far, bad], rfl,
        List.forall_mem_singleton.2 ⟨_, rfl⟩, rfl, rfl⟩
    · exact (hunknown _ _).2 ⟨"TURN", "value", rfl⟩

end Batch

end MavDialect
