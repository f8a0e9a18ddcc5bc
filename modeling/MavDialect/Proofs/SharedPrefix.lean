-- The prefix of the value names beside its reference, the longest front that all names begin with
-- and that ends in `_`.  The prefix is this front, or the enum's name and `_` where there is no
-- such front or where it starts with the enum's name and is longer than that.  The second case does
-- not ask for the `_`: enum `GPS` with `GPSD_A` and `GPSD_B` gets a prefix that no name has.
import MavDialect.Naming.EnumPrefix

namespace MavDialect

namespace Text

/-! ## Common fronts -/

theorem prefix_commonFront_iff {front as bs : List Char} :
    front <+: commonFront as bs ↔ front <+: as ∧ front <+: bs := by
  induction as generalizing front bs with
  | nil =>
    simp only [commonFront, List.prefix_nil, iff_self_and]
    rintro rfl
    exact List.nil_prefix
  | cons a as ih =>
    cases bs with
    | nil =>
      simp only [commonFront, List.prefix_nil, iff_and_self]
      rintro rfl
      exact List.nil_prefix
    | cons b bs =>
      cases front with
      | nil => simp
      | cons c front =>
        by_cases h : a = b
        · subst h
          simp only [commonFront, if_true, List.cons_prefix_cons, ih]
          grind
        · simp only [commonFront, if_neg h, List.prefix_nil, List.cons_prefix_cons]
          grind

theorem prefix_foldl_commonFront_iff {front first : List Char} {rest : List (List Char)} :
    front <+: rest.foldl commonFront first ↔ front <+: first ∧ ∀ t ∈ rest, front <+: t := by
  induction rest generalizing first with
  | nil => simp
  | cons t rest ih =>
    rw [List.foldl_cons, ih, prefix_commonFront_iff, List.forall_mem_cons, and_assoc]

/-- The fronts of the shared front are the fronts of all texts. -/
theorem prefix_sharedFront_iff {front : List Char} {texts : List (List Char)} (h : texts ≠ []) :
    front <+: sharedFront texts ↔ ∀ t ∈ texts, front <+: t := by
  cases texts with
  | nil => exact absurd rfl h
  | cons first rest => rw [sharedFront, prefix_foldl_commonFront_iff, List.forall_mem_cons]

/-! ## Up to the last mark -/

theorem upToLast_prefix (mark : Char) (cs : List Char) : upToLast mark cs <+: cs := by
  induction cs with
  | nil => exact List.nil_prefix
  | cons c cs ih =>
    unfold upToLast
    split
    · split <;> simp
    · exact List.cons_prefix_cons.2 ⟨rfl, ih⟩

theorem getLast?_upToLast {mark : Char} {cs : List Char} (h : upToLast mark cs ≠ []) :
    (upToLast mark cs).getLast? = some mark := by
  induction cs with
  | nil => exact absurd rfl h
  | cons c cs ih =>
    unfold upToLast at h ⊢
    split
    · rename_i hnone
      rw [hnone] at h
      by_cases hc : c = mark
      · simp [hc]
      · simp [hc] at h
    · rename_i hkept
      rw [List.getLast?_cons, ih hkept]
      rfl

/-- Every front that ends in the mark is kept. -/
theorem prefix_upToLast {mark : Char} {front cs : List Char} (h : front <+: cs)
    (hmark : front.getLast? = some mark) : front <+: upToLast mark cs := by
  induction cs generalizing front with
  | nil => exact h
  | cons c cs ih =>
    cases front with
    | nil => exact List.nil_prefix
    | cons d front =>
      obtain ⟨rfl, hrest⟩ := List.cons_prefix_cons.1 h
      unfold upToLast
      cases front with
      | nil =>
        have hd : d = mark := by simpa using hmark
        split <;> simp [hd]
      | cons e front =>
        have hkept := ih hrest (by rwa [List.getLast?_cons_cons] at hmark)
        split
        · rename_i hnone
          rw [hnone] at hkept
          simp at hkept
        · exact List.cons_prefix_cons.2 ⟨rfl, hkept⟩

end Text

namespace Naming

open Text

/-! ## The reference -/

/-- A front that ends in `_` and that every name begins with. -/
structure MarkedFront (names : List String) (front : String) : Prop where
  marked : front.toList.getLast? = some '_'
  begins : ∀ name ∈ names, front.toList <+: name.toList

/-- The longest such front, which is empty when there is none and when there are no names. -/
structure LongestFront (names : List String) (front : String) : Prop where
  markedFront : front ≠ "" → names ≠ [] ∧ MarkedFront names front
  longest : names ≠ [] → ∀ other, MarkedFront names other → other.length ≤ front.length

/-- Of the same names in another order, or with repetitions, the longest front is the same. -/
theorem LongestFront.congr {names others : List String} {front : String}
    (h : LongestFront names front) (hsame : ∀ name, name ∈ others ↔ name ∈ names) :
    LongestFront others front := by
  have hnil : others ≠ [] ↔ names ≠ [] := by
    simp only [ne_eq, List.eq_nil_iff_forall_not_mem, hsame]
  have hmarked (other : String) : MarkedFront others other ↔ MarkedFront names other := by
    constructor
    · exact fun ho => ⟨ho.marked, fun name hn => ho.begins name ((hsame name).2 hn)⟩
    · exact fun ho => ⟨ho.marked, fun name hn => ho.begins name ((hsame name).1 hn)⟩
  refine ⟨fun hne => ?_, fun hne other ho => ?_⟩
  · obtain ⟨hnames, hfront⟩ := h.markedFront hne
    exact ⟨hnil.2 hnames, (hmarked front).2 hfront⟩
  · exact h.longest (hnil.1 hne) other ((hmarked other).1 ho)

/-- The marked front that is found. -/
def foundFront (names : List String) : List Char :=
  upToLast '_' (sharedFront (names.map String.toList))

theorem markedFront_foundFront {names : List String} (h : foundFront names ≠ []) :
    names ≠ [] ∧ MarkedFront names (String.ofList (foundFront names)) := by
  have hne : names ≠ [] := by
    rintro rfl
    exact h rfl
  refine ⟨hne, ?_, fun name hname => ?_⟩
  · rw [String.toList_ofList]
    exact getLast?_upToLast h
  · rw [String.toList_ofList]
    have hshared : foundFront names <+: sharedFront (names.map String.toList) :=
      upToLast_prefix _ _
    have htexts : names.map String.toList ≠ [] := by simpa using hne
    exact (prefix_sharedFront_iff htexts).1 hshared _ (List.mem_map_of_mem hname)

/-- Every marked front is a front of the one that is found. -/
theorem MarkedFront.prefix_foundFront {names : List String} (hne : names ≠ []) {front : String}
    (h : MarkedFront names front) : front.toList <+: foundFront names := by
  have htexts : names.map String.toList ≠ [] := by simpa using hne
  refine prefix_upToLast ((prefix_sharedFront_iff htexts).2 fun t ht => ?_) h.marked
  obtain ⟨name, hname, rfl⟩ := List.mem_map.1 ht
  exact h.begins name hname

theorem longestFront_foundFront (names : List String) :
    LongestFront names (String.ofList (foundFront names)) := by
  refine ⟨fun h => markedFront_foundFront fun hnil => h ?_, fun hne other ho => ?_⟩
  · rw [hnil, String.ofList_nil]
  · rw [String.length_ofList, ← String.length_toList]
    exact (ho.prefix_foundFront hne).length_le

/-- There is one longest front. -/
theorem LongestFront.eq_foundFront {names : List String} {front : String}
    (h : LongestFront names front) : front = String.ofList (foundFront names) := by
  by_cases hempty : front = ""
  · by_cases hnil : foundFront names = []
    · rw [hempty, hnil, String.ofList_nil]
    · obtain ⟨hnames, hmarked⟩ := markedFront_foundFront hnil
      have hlength := h.longest hnames _ hmarked
      rw [hempty, String.length_ofList] at hlength
      exact absurd (List.eq_nil_of_length_eq_zero (Nat.le_zero.1 hlength)) hnil
  · obtain ⟨hnames, hmarked⟩ := h.markedFront hempty
    have hprefix := hmarked.prefix_foundFront hnames
    have hne : foundFront names ≠ [] := by
      intro hnil
      rw [hnil, List.prefix_nil] at hprefix
      exact hempty (String.toList_eq_nil_iff.1 hprefix)
    have hlength := h.longest hnames _ (markedFront_foundFront hne).2
    rw [String.length_ofList, ← String.length_toList] at hlength
    rw [← hprefix.eq_of_length_le hlength, String.ofList_toList]

/-! ## The prefix -/

/-- The enum's name and `_`. -/
def ownPrefix (enumName : String) : String := enumName ++ "_"

theorem toList_ownPrefix (enumName : String) :
    (ownPrefix enumName).toList = enumName.toList ++ ['_'] := by
  simp [ownPrefix]

/-- The front starts with the enum's name, and is longer than the name and `_`. -/
def Outgrows (enumName front : String) : Prop :=
  enumName.toList <+: front.toList ∧ (ownPrefix enumName).length < front.length

instance (enumName front : String) : Decidable (Outgrows enumName front) :=
  inferInstanceAs (Decidable (_ ∧ _))

theorem sharedPrefix_eq {names : List String} {front : String} (h : LongestFront names front)
    (enumName : String) :
    sharedPrefix enumName names =
      if front ≠ "" ∧ ¬ Outgrows enumName front then front else ownPrefix enumName := by
  have hfound : front.toList = foundFront names := by
    rw [h.eq_foundFront, String.toList_ofList]
  have houtgrows : (enumName.toList <+: foundFront names ∧
      (enumName.toList ++ ['_']).length < (foundFront names).length) ↔ Outgrows enumName front := by
    rw [Outgrows, ← hfound, ← toList_ownPrefix, String.length_toList, String.length_toList]
  have hown : String.ofList (enumName.toList ++ ['_']) = ownPrefix enumName := by
    rw [← toList_ownPrefix, String.ofList_toList]
  have hguard : ((foundFront names).isEmpty || (enumName.toList.isPrefixOf (foundFront names) &&
      decide ((enumName.toList ++ ['_']).length < (foundFront names).length))) ↔
        ¬ (front ≠ "" ∧ ¬ Outgrows enumName front) := by
    rw [Bool.or_eq_true, Bool.and_eq_true, List.isPrefixOf_iff_prefix, decide_eq_true_iff,
      houtgrows, List.isEmpty_iff, ← hfound, String.toList_eq_nil_iff]
    by_cases hempty : front = "" <;> simp [hempty]
  by_cases hkept : front ≠ "" ∧ ¬ Outgrows enumName front
  · rw [if_pos hkept, h.eq_foundFront]
    exact if_neg fun hc => hguard.1 hc hkept
  · rw [if_neg hkept, ← hown]
    exact if_pos (hguard.2 hkept)

theorem sharedPrefix_marked (enumName : String) (names : List String) :
    (sharedPrefix enumName names).toList.getLast? = some '_' := by
  have hlongest := longestFront_foundFront names
  rw [sharedPrefix_eq hlongest]
  split
  · rename_i hkept
    exact (hlongest.markedFront hkept.1).2.marked
  · rw [toList_ownPrefix, List.getLast?_concat]

/-- The prefix is the longest front that all names share and that ends in `_`, unless there is none
or it outgrows the enum's name; then it is the enum's name and `_`.  So it ends in `_`, and neither
the order of the names nor their repetition matters. -/
theorem the_prefix_is_the_longest_front_or_the_enums_own (enumName : String)
    (names : List String) :
    (∃ front, LongestFront names front ∧ (∀ other, LongestFront names other → other = front) ∧
      sharedPrefix enumName names =
        if front ≠ "" ∧ ¬ Outgrows enumName front then front else ownPrefix enumName) ∧
    (sharedPrefix enumName names).toList.getLast? = some '_' ∧
    ∀ others, (∀ name, name ∈ others ↔ name ∈ names) →
      sharedPrefix enumName others = sharedPrefix enumName names := by
  have hlongest := longestFront_foundFront names
  refine ⟨⟨_, hlongest, fun other ho => ho.eq_foundFront, sharedPrefix_eq hlongest enumName⟩,
    sharedPrefix_marked enumName names, fun others hsame => ?_⟩
  rw [sharedPrefix_eq (hlongest.congr hsame), sharedPrefix_eq hlongest]

/-! ## Names that run on -/

/-- A marked front of the names goes on after the enum's name with another character than `_`. -/
def RunOn (enumName : String) (names : List String) : Prop :=
  ∃ front, MarkedFront names front ∧ ∃ c, c ≠ '_' ∧ enumName.toList ++ [c] <+: front.toList

theorem LongestFront.prefix_of_marked {names : List String} {front other : String}
    (h : LongestFront names front) (hne : names ≠ []) (ho : MarkedFront names other) :
    other.toList <+: front.toList := by
  rw [h.eq_foundFront, String.toList_ofList]
  exact ho.prefix_foundFront hne

/-- A front that outgrows the enum's name has the `_` after it, or runs on. -/
theorem Outgrows.own_or_runs_on {enumName front : String} (h : Outgrows enumName front) :
    (ownPrefix enumName).toList <+: front.toList ∨
      ∃ c, c ≠ '_' ∧ enumName.toList ++ [c] <+: front.toList := by
  obtain ⟨⟨rest, hrest⟩, hlength⟩ := h
  rw [← String.length_toList, ← String.length_toList, toList_ownPrefix, ← hrest] at hlength
  cases rest with
  | nil =>
    simp only [List.append_nil, List.length_append, List.length_singleton] at hlength
    omega
  | cons c rest =>
    have hprefix : enumName.toList ++ [c] <+: front.toList := ⟨rest, by simp [← hrest]⟩
    by_cases hc : c = '_'
    · left
      rw [toList_ownPrefix, ← hc]
      exact hprefix
    · exact .inr ⟨c, hc, hprefix⟩

/-- Nothing starts with the enum's name and `_` and also runs on. -/
theorem not_own_of_runs_on {enumName : String} {c : Char} {cs : List Char} (hc : c ≠ '_')
    (h : enumName.toList ++ [c] <+: cs) : ¬ (ownPrefix enumName).toList <+: cs := by
  intro hown
  rw [toList_ownPrefix] at hown
  have hsame := (List.prefix_of_prefix_length_le h hown (by simp)).eq_of_length (by simp)
  exact hc (by simpa using hsame)

/-- The `_` at the end of a marked front that runs on comes later, so the front outgrows the
enum's name. -/
theorem MarkedFront.outgrows {names : List String} {enumName front : String}
    (h : MarkedFront names front) {c : Char} (hc : c ≠ '_')
    (hrun : enumName.toList ++ [c] <+: front.toList) : Outgrows enumName front := by
  refine ⟨(List.prefix_append _ _).trans hrun, ?_⟩
  obtain ⟨rest, hrest⟩ := hrun
  have hmarked := h.marked
  rw [← String.length_toList, ← String.length_toList, toList_ownPrefix, ← hrest]
  cases rest with
  | nil =>
    rw [← hrest, List.append_nil, List.getLast?_concat] at hmarked
    exact absurd (Option.some.inj hmarked) hc
  | cons d rest => simp

theorem LongestFront.ne_empty {names : List String} {front : String}
    (h : LongestFront names front) (hne : names ≠ []) (hmarked : ∃ front, MarkedFront names front) :
    front ≠ "" := by
  obtain ⟨other, ho⟩ := hmarked
  rintro rfl
  have hnil := List.prefix_nil.1 (h.prefix_of_marked hne ho)
  have hlast := ho.marked
  rw [hnil] at hlast
  cases hlast

/-- The prefix of names that run on is the enum's own, and no name begins with it. -/
theorem sharedPrefix_of_runOn {enumName : String} {names : List String} (hne : names ≠ [])
    (h : RunOn enumName names) :
    sharedPrefix enumName names = ownPrefix enumName ∧
      ∀ name ∈ names, ¬ (ownPrefix enumName).toList <+: name.toList := by
  obtain ⟨front, hfront, c, hc, hrun⟩ := h
  have hlongest := longestFront_foundFront names
  have hnonempty := hlongest.ne_empty hne ⟨front, hfront⟩
  have houtgrows : Outgrows enumName (String.ofList (foundFront names)) :=
    (hlongest.markedFront hnonempty).2.outgrows hc
      (hrun.trans (hlongest.prefix_of_marked hne hfront))
  constructor
  · rw [sharedPrefix_eq hlongest, if_neg fun hkept => hkept.2 houtgrows]
  · exact fun name hname => not_own_of_runs_on hc (hrun.trans (hfront.begins name hname))

theorem sharedPrefix_of_not_runOn {enumName : String} {names : List String} {front : String}
    (hlongest : LongestFront names front) (hnonempty : front ≠ "") (h : ¬ RunOn enumName names) :
    sharedPrefix enumName names =
      if (ownPrefix enumName).toList <+: front.toList then ownPrefix enumName else front := by
  rw [sharedPrefix_eq hlongest]
  by_cases houtgrows : Outgrows enumName front
  · have hown : (ownPrefix enumName).toList <+: front.toList := by
      rcases houtgrows.own_or_runs_on with hown | hrun
      · exact hown
      · exact absurd ⟨front, (hlongest.markedFront hnonempty).2, hrun⟩ h
    rw [if_neg fun hkept => hkept.2 houtgrows, if_pos hown]
  · rw [if_pos ⟨hnonempty, houtgrows⟩]
    split
    · -- a front that reaches no further than the enum's own prefix is that prefix
      rename_i hown
      have hname : enumName.toList <+: front.toList := by
        rw [toList_ownPrefix] at hown
        exact (List.prefix_append _ _).trans hown
      have hlength : front.length ≤ (ownPrefix enumName).length :=
        Nat.le_of_not_lt fun hlt => houtgrows ⟨hname, hlt⟩
      rw [← String.length_toList, ← String.length_toList] at hlength
      exact (String.toList_inj.1 (hown.eq_of_length_le hlength)).symm
    · rfl

theorem shortName_of_not_prefix {name front : String} (h : ¬ front.toList <+: name.toList) :
    shortName name front = name := by
  have hnone : dropFront? front.toList name.toList = none := by
    rw [Option.eq_none_iff_forall_ne_some]
    intro rest hrest
    exact h ⟨rest, (dropFront?_eq_some_iff.1 hrest).symm⟩
  rw [shortName, hnone]

/-- Where the names share a front that ends in `_`, they all begin with the prefix unless they run
on.  It is then the longest such front, cut after the enum's name and `_` where it reaches past
them.  Where the names run on, none begins with the prefix, and so none is shortened. -/
theorem the_prefix_is_shared_unless_the_names_run_on (enumName : String) {names : List String}
    (hne : names ≠ []) (hmarked : ∃ front, MarkedFront names front) :
    ((∀ name ∈ names, (sharedPrefix enumName names).toList <+: name.toList) ↔
      ¬ RunOn enumName names) ∧
    (¬ RunOn enumName names → ∀ front, LongestFront names front →
      sharedPrefix enumName names =
        if (ownPrefix enumName).toList <+: front.toList then ownPrefix enumName else front) ∧
    (RunOn enumName names → ∀ name ∈ names,
      ¬ (sharedPrefix enumName names).toList <+: name.toList ∧
        shortName name (sharedPrefix enumName names) = name) := by
  have hkept (h : ¬ RunOn enumName names) (front : String) (hlongest : LongestFront names front) :=
    sharedPrefix_of_not_runOn hlongest (hlongest.ne_empty hne hmarked) h
  have hnone (h : RunOn enumName names) : ∀ name ∈ names,
      ¬ (sharedPrefix enumName names).toList <+: name.toList := by
    obtain ⟨hown, hnone⟩ := sharedPrefix_of_runOn hne h
    rwa [hown]
  refine ⟨⟨fun hall hrun => ?_, fun h name hname => ?_⟩, hkept, fun hrun name hname => ?_⟩
  · obtain ⟨name, hname⟩ := List.exists_mem_of_ne_nil names hne
    exact hnone hrun name hname (hall name hname)
  · have hlongest := longestFront_foundFront names
    have hnonempty := hlongest.ne_empty hne hmarked
    have hbegins := (hlongest.markedFront hnonempty).2.begins name hname
    rw [hkept h _ hlongest]
    split
    · rename_i hown
      exact hown.trans hbegins
    · exact hbegins
  · exact ⟨hnone hrun name hname, shortName_of_not_prefix (hnone hrun name hname)⟩

/-- A front that reaches past the enum's name and `_` is cut there, and all names begin with what is
left. -/
theorem a_front_past_the_own_prefix_is_cut :
    let names := ["MAV_TEST_FOO_A", "MAV_TEST_FOO_B"]
    (names ≠ [] ∧ MarkedFront names "MAV_TEST_FOO_") ∧ ¬ RunOn "MAV_TEST" names ∧
      sharedPrefix "MAV_TEST" names = "MAV_TEST_" ∧
      ∀ name ∈ names, (sharedPrefix "MAV_TEST" names).toList <+: name.toList := by
  intro names
  have hne : names ≠ [] := by decide
  have hmarked : MarkedFront names "MAV_TEST_FOO_" := ⟨by decide, by decide⟩
  have hbegins : ∀ name ∈ names, (sharedPrefix "MAV_TEST" names).toList <+: name.toList := by
    decide
  obtain ⟨hiff, hcut, _⟩ := the_prefix_is_shared_unless_the_names_run_on "MAV_TEST" hne ⟨_, hmarked⟩
  have hlongest : LongestFront names "MAV_TEST_FOO_" := longestFront_foundFront names
  have hrun := hiff.1 hbegins
  have hown := (hcut hrun _ hlongest).trans (if_pos (by decide))
  exact ⟨⟨hne, hmarked⟩, hrun, hown, hbegins⟩

/-- The names of the values of `GPS` share `GPSD_`, but the prefix is `GPS_`, with which neither
begins, and both names stay as they are. -/
theorem names_that_run_on_are_not_shortened :
    let names := ["GPSD_A", "GPSD_B"]
    MarkedFront names "GPSD_" ∧ sharedPrefix "GPS" names = "GPS_" ∧
      (¬ ∀ name ∈ names, (sharedPrefix "GPS" names).toList <+: name.toList) ∧
      names.map (shortName · (sharedPrefix "GPS" names)) = names := by
  intro names
  exact ⟨⟨by decide, by decide⟩, by decide, by decide, by decide⟩

end Naming

end MavDialect
