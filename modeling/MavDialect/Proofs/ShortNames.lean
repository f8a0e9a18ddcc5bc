-- The short names of the values of an enum.  A name is cut only where what is left can stand as a
-- name, so cut names and whole ones are found side by side, and they may meet: `A_A_1` without `A_`
-- is `A_1`, and a value called `A_1` keeps its name, since `1` cannot stand.  In no other way do
-- two values come to have the same name.
import MavDialect.Enumeration
import MavDialect.Proofs.SharedPrefix

namespace MavDialect

namespace Naming

open Text

/-- The name starts with an ASCII digit. -/
def startsWithDigit (name : String) : Bool := name.toList.head?.any Char.isDigit

/-- What is left of a name can stand as a name of its own. -/
def Stands (rest : String) : Prop := rest ≠ "" ∧ startsWithDigit rest = false

instance (rest : String) : Decidable (Stands rest) := inferInstanceAs (Decidable (_ ∧ _))

/-- A name is cut where the rest stands, and is kept whole otherwise. -/
theorem shortName_append {front rest : String} :
    shortName (front ++ rest) front = if Stands rest then rest else front ++ rest := by
  have hdrop : dropFront? front.toList (front ++ rest).toList = some rest.toList := by
    rw [dropFront?_eq_some_iff, String.toList_append]
  unfold shortName
  rw [hdrop]
  cases hrest : rest.toList with
  | nil =>
    have hempty : rest = "" := String.toList_eq_nil_iff.1 hrest
    simp [Stands, hempty]
  | cons c cs =>
    have hne : rest ≠ "" := by
      intro h
      simp [h] at hrest
    have hof : String.ofList (c :: cs) = rest := by rw [← hrest, String.ofList_toList]
    by_cases hc : c.isDigit
    · have hdigit : ¬ Stands rest := by simp [Stands, startsWithDigit, hrest, hc]
      rw [if_neg hdigit]
      exact if_pos hc
    · have hstands : Stands rest := ⟨hne, by simp [startsWithDigit, hrest, hc]⟩
      rw [if_pos hstands, ← hof]
      exact if_neg hc

/-- A name is kept whole, or it is the prefix and the short name. -/
theorem shortName_cases (name front : String) :
    shortName name front = name ∨
      name = front ++ shortName name front ∧ Stands (shortName name front) := by
  by_cases hprefix : front.toList <+: name.toList
  · obtain ⟨rest, hrest⟩ := hprefix
    have hname : name = front ++ String.ofList rest := by
      apply String.toList_inj.1
      rw [String.toList_append, String.toList_ofList, hrest]
    by_cases hstands : Stands (String.ofList rest)
    · right
      rw [hname, shortName_append, if_pos hstands]
      exact ⟨rfl, hstands⟩
    · left
      rw [hname, shortName_append, if_neg hstands]
  · left
    exact shortName_of_not_prefix hprefix

/-- One name is the prefix and the other, and the other is kept whole. -/
def RunsInto (front a b : String) : Prop := a = front ++ b ∧ Stands b ∧ shortName b front = b

/-- Two names come out the same only where one is cut and the other is what is left of it. -/
theorem shortName_eq_iff {a b : String} (front : String) (hne : a ≠ b) :
    shortName a front = shortName b front ↔ RunsInto front a b ∨ RunsInto front b a := by
  constructor
  · intro h
    rcases shortName_cases a front with ha | ⟨ha, hastands⟩
    · rcases shortName_cases b front with hb | ⟨hb, hbstands⟩
      · rw [ha, hb] at h
        exact absurd h hne
      · right
        rw [← h, ha] at hb hbstands
        exact ⟨hb, hbstands, ha⟩
    · rcases shortName_cases b front with hb | ⟨hb, _⟩
      · left
        rw [h, hb] at ha hastands
        exact ⟨ha, hastands, hb⟩
      · -- both are cut, and what is left is the same
        rw [ha, h, ← hb] at hne
        exact absurd rfl hne
  · rintro (⟨ha, hstands, hwhole⟩ | ⟨hb, hstands, hwhole⟩)
    · rw [ha, shortName_append, if_pos hstands, hwhole]
    · rw [hb, shortName_append, if_pos hstands, hwhole]

end Naming

namespace Enumeration

open Naming

/-- What is cut off the names of the values. -/
def prefixToCut (e : Enumeration) : String :=
  sharedPrefix e.sourceName (e.values.map (·.sourceName))

theorem sourceNames_shortenNames (e : Enumeration) :
    e.shortenNames.values.map (·.sourceName) = e.values.map (·.sourceName) := by
  simp [shortenNames]

theorem prefixToCut_shortenNames (e : Enumeration) :
    e.shortenNames.prefixToCut = e.prefixToCut := by
  unfold prefixToCut
  rw [sourceNames_shortenNames]
  rfl

/-- Every name is made of the source name alone. -/
theorem name_of_mem_shortenNames {e : Enumeration} {v : EnumValue}
    (h : v ∈ e.shortenNames.values) : v.name = shortName v.sourceName e.prefixToCut := by
  obtain ⟨w, _, rfl⟩ := List.mem_map.1 h
  rfl

/-- The prefix is found in the source names, so names that were shortened are shortened alike. -/
theorem shortenNames_shortenNames (e : Enumeration) :
    e.shortenNames.shortenNames = e.shortenNames := by
  have hvalues : e.shortenNames.values.map (fun v =>
      { v with name := shortName v.sourceName e.prefixToCut }) = e.shortenNames.values := by
    simp [shortenNames, prefixToCut]
  calc e.shortenNames.shortenNames
      = { e with
          commonPrefix := e.shortenNames.prefixToCut
          values := e.shortenNames.values.map fun v =>
            { v with name := shortName v.sourceName e.shortenNames.prefixToCut } } := rfl
    _ = { e with commonPrefix := e.prefixToCut, values := e.shortenNames.values } := by
        rw [prefixToCut_shortenNames, hvalues]
    _ = e.shortenNames := rfl

/-- The values of an enum under their short names: each is its source name, whole or without the
prefix.  None is empty or starts with a digit unless the source name does.  Two of them that are
called differently in the source come out the same exactly when one is the prefix and the other, and
the other can stand as a name and is whole.  The names and the prefix of before count for nothing,
so doing it again changes nothing. -/
theorem names_meet_where_a_cut_one_is_a_whole_one (e : Enumeration) :
    let short := e.shortenNames
    short.commonPrefix = sharedPrefix e.sourceName (e.values.map (·.sourceName)) ∧
    short.values.map (·.sourceName) = e.values.map (·.sourceName) ∧
    (∀ v ∈ short.values,
      (v.name = v.sourceName ∨ v.sourceName = short.commonPrefix ++ v.name) ∧
      (v.name = "" → v.sourceName = "") ∧
      (startsWithDigit v.name → startsWithDigit v.sourceName)) ∧
    (∀ v ∈ short.values, ∀ w ∈ short.values, v.sourceName ≠ w.sourceName →
      (v.name = w.name ↔
        (v.sourceName = short.commonPrefix ++ w.sourceName ∧ w.sourceName ≠ "" ∧
          ¬ startsWithDigit w.sourceName ∧ w.name = w.sourceName) ∨
        (w.sourceName = short.commonPrefix ++ v.sourceName ∧ v.sourceName ≠ "" ∧
          ¬ startsWithDigit v.sourceName ∧ v.name = v.sourceName))) ∧
    short.shortenNames = short := by
  intro short
  refine ⟨rfl, sourceNames_shortenNames e, fun v hv => ?_, fun v hv w hw hne => ?_,
    shortenNames_shortenNames e⟩
  · rw [name_of_mem_shortenNames hv]
    rcases shortName_cases v.sourceName e.prefixToCut with hwhole | ⟨hcut, hstands⟩
    · rw [hwhole]
      exact ⟨.inl rfl, id, id⟩
    · refine ⟨.inr hcut, fun hempty => absurd hempty hstands.1, fun hdigit => ?_⟩
      rw [hstands.2] at hdigit
      cases hdigit
  · have hiff := shortName_eq_iff e.prefixToCut hne
    rw [← name_of_mem_shortenNames hv, ← name_of_mem_shortenNames hw] at hiff
    rw [hiff]
    simp only [RunsInto, Stands, ← name_of_mem_shortenNames hv, ← name_of_mem_shortenNames hw,
      and_assoc, Bool.not_eq_true]
    rfl

/-- An enum of values with these source names, numbered alike. -/
def ofSourceNames (name : String) (names : List String) : Enumeration where
  name := name
  sourceName := name
  description := []
  commonPrefix := ""
  values := names.map fun sourceName =>
    { sourceName, name := sourceName, value := 0, sourceValue := "0", description := []
      params := [], hasLocation := false, isDestination := false, workInProgress := false
      deprecated := none }

/-- `A_1` is kept whole, since `1` cannot stand, and `A_A_1` is cut down to it. -/
theorem a_cut_name_meets_a_whole_one :
    let short := (ofSourceNames "A" ["A_1", "A_A_1", "A_B"]).shortenNames
    short.commonPrefix = "A_" ∧ short.values.map (·.name) = ["A_1", "A_1", "B"] ∧
      ∃ v ∈ short.values, ∃ w ∈ short.values,
        v.sourceName ≠ w.sourceName ∧ v.name = w.name := by
  intro short
  obtain ⟨_, _, _, hmeet, _⟩ :=
    names_meet_where_a_cut_one_is_a_whole_one (ofSourceNames "A" ["A_1", "A_A_1", "A_B"])
  refine ⟨by decide, by decide, short.values[0], by decide, short.values[1], by decide,
    by decide, ?_⟩
  exact (hmeet _ (by decide) _ (by decide) (by decide)).2 (.inr (by decide))

end Enumeration

end MavDialect
