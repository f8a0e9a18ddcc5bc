-- The shape of an accessor.  It has no white space, no slash and no `command`, it is empty when the
-- label starts with a slash, and it counts as many marks as the label before its slash, less those
-- that the humps took.
import MavDialect.Command
import MavDialect.Proofs.CaseMapping
import MavDialect.Proofs.Ordinals
import Mathlib.Data.List.TakeWhile

namespace MavDialect

open Text

namespace Naming

variable {c m mark : Char} {cs ds : List Char}

/-! ## Humps -/

/-- White space goes, and everything else stays in one case or another. -/
theorem recased_humpWhite (afterWhite : Bool) (cs : List Char) :
    Recased (ink cs) (humpWhite afterWhite cs) := by
  induction cs generalizing afterWhite with
  | nil => exact .nil
  | cons c cs ih =>
    unfold humpWhite
    split
    · rename_i hc
      simpa [ink, hc] using ih true
    · rename_i hc
      have hink : ink (c :: cs) = c :: ink cs := by simp [ink, hc]
      rw [hink]
      refine .image ?_ (ih false)
      split
      · exact caseImage_upper c
      · exact .inl rfl

/-- A hump takes the first mark, unless the text ends in it. -/
theorem humpMark_cases (mark : Char) (cs : List Char) :
    humpMark mark cs = cs ∧ (mark ∉ cs ∨ cs.getLast? = some mark) ∨
      Recased (cs.erase mark) (humpMark mark cs) ∧ cs.erase mark ≠ [] ∧
        (cs.erase mark).getLast? = cs.getLast? := by
  by_cases hmem : mark ∈ cs
  · obtain ⟨before, after, hbefore, hcs, herase⟩ := List.exists_erase_eq hmem
    have hall := forall_ne_of_not_mem hbefore
    have htake : cs.takeWhile (· ≠ mark) = before := by
      rw [hcs, List.takeWhile_append_of_pos hall]
      simp
    have hdrop : cs.dropWhile (· ≠ mark) = mark :: after := by
      rw [hcs, List.dropWhile_append_of_pos hall]
      simp
    unfold humpMark
    rw [hdrop, htake, herase]
    -- a mark at the end has nothing to put in upper case, and stays
    cases after with
    | nil => exact .inl ⟨rfl, .inr (by simp [hcs])⟩
    | cons c rest =>
      refine .inr ⟨?_, by simp, by simp [hcs]⟩
      show Recased _ (before ++ upper c ++ rest)
      rw [List.append_assoc]
      exact .append_left before (.image (caseImage_upper c) (.refl rest))
  · have hdrop : cs.dropWhile (· ≠ mark) = [] :=
      List.dropWhile_eq_nil_iff.2 (forall_ne_of_not_mem hmem)
    refine .inl ⟨?_, .inl hmem⟩
    unfold humpMark
    rw [hdrop]

theorem recased_humpMark (hlast : cs.getLast? ≠ some mark) :
    Recased (cs.erase mark) (humpMark mark cs) ∧ (cs.erase mark).getLast? = cs.getLast? := by
  rcases humpMark_cases mark cs with ⟨hsame, hno | hend⟩ | ⟨hrecased, _, hend⟩
  · rw [hsame, List.erase_of_not_mem hno]
    exact ⟨.refl cs, rfl⟩
  · exact absurd hend hlast
  · exact ⟨hrecased, hend⟩

theorem humpMark_eq_nil_iff : humpMark mark cs = [] ↔ cs = [] := by
  rcases humpMark_cases mark cs with ⟨hsame, _⟩ | ⟨hrecased, hne, _⟩
  · rw [hsame]
  · rw [hrecased.eq_nil_iff]
    refine iff_of_false hne ?_
    rintro rfl
    exact hne rfl

theorem mem_of_mem_humpMark (hm : isPlain m = true) (h : m ∈ humpMark mark cs) : m ∈ cs := by
  rcases humpMark_cases mark cs with ⟨hsame, _⟩ | ⟨hrecased, _, _⟩
  · rwa [hsame] at h
  · exact List.mem_of_mem_erase ((hrecased.mem_iff hm).1 h)

theorem count_humpMark (hlast : cs.getLast? ≠ some mark) (hm : isPlain m = true) :
    (humpMark mark cs).count m = cs.count m - if mark == m then 1 else 0 := by
  rw [(recased_humpMark hlast).1.count hm, List.count_erase]

theorem getLast?_humpMark_iff (hlast : cs.getLast? ≠ some mark) (hm : isPlain m = true) :
    (humpMark mark cs).getLast? = some m ↔ cs.getLast? = some m := by
  obtain ⟨hrecased, hend⟩ := recased_humpMark hlast
  rw [hrecased.getLast?_iff hm, hend]

/-! ## The label before its slash -/

/-- The label up to its first slash, or all of it. -/
def beforeSlash (label : List Char) : List Char := label.takeWhile (· ≠ '/')

/-- What the humps for marks are made in. -/
def labelFront (label : List Char) : List Char := beforeSlash (humpWhite false (lowerAll label))

theorem labelHead_eq (label : List Char) :
    labelHead label = humpMark '.' (humpMark '-' (humpMark '-' (labelFront label))) := rfl

theorem ink_beforeSlash (cs : List Char) : ink (beforeSlash cs) = beforeSlash (ink cs) := by
  unfold beforeSlash
  induction cs with
  | nil => rfl
  | cons c cs ih =>
    by_cases hslash : c = '/'
    · subst hslash
      rfl
    · by_cases hc : isWhite c
      · simpa [ink, hc, hslash, List.takeWhile_cons] using ih
      · simpa [ink, hc, hslash, List.takeWhile_cons] using ih

/-- Up to its first slash, without white space, the label stays in one case or another. -/
theorem recased_labelFront (label : List Char) :
    Recased (ink (beforeSlash label)) (labelFront label) := by
  have hhumped := (recased_lowerAll label).ink.trans (recased_humpWhite false (lowerAll label))
  rw [ink_beforeSlash]
  exact hhumped.takeWhile (by decide)

theorem labelHead_eq_nil_iff (label : List Char) :
    labelHead label = [] ↔ ink (beforeSlash label) = [] := by
  rw [labelHead_eq, humpMark_eq_nil_iff, humpMark_eq_nil_iff, humpMark_eq_nil_iff,
    (recased_labelFront label).eq_nil_iff]

theorem mem_of_mem_labelHead {label : List Char} (hm : isPlain m = true) (h : m ∈ labelHead label) :
    m ∈ ink (beforeSlash label) := by
  rw [labelHead_eq] at h
  have hfront := mem_of_mem_humpMark hm (mem_of_mem_humpMark hm (mem_of_mem_humpMark hm h))
  exact ((recased_labelFront label).mem_iff hm).1 hfront

/-- Two hyphens and one point are taken from a label that ends in neither. -/
theorem count_labelHead {label : List Char} (hm : isPlain m = true)
    (hhyphen : (ink (beforeSlash label)).getLast? ≠ some '-')
    (hpoint : (ink (beforeSlash label)).getLast? ≠ some '.') :
    (labelHead label).count m = (ink (beforeSlash label)).count m -
      (if '-' == m then 1 else 0) - (if '-' == m then 1 else 0) - if '.' == m then 1 else 0 := by
  have hfront := recased_labelFront label
  -- neither mark comes to the end, so no step meets a mark that it would have to leave
  have hhyphen₀ := mt (hfront.getLast?_iff (by decide)).1 hhyphen
  have hpoint₀ := mt (hfront.getLast?_iff (by decide)).1 hpoint
  have hhyphen₁ := mt (getLast?_humpMark_iff hhyphen₀ (by decide)).1 hhyphen₀
  have hpoint₁ := mt (getLast?_humpMark_iff hhyphen₀ (by decide)).1 hpoint₀
  have hpoint₂ := mt (getLast?_humpMark_iff hhyphen₁ (by decide)).1 hpoint₁
  rw [labelHead_eq, count_humpMark hpoint₂ hm, count_humpMark hhyphen₁ hm,
    count_humpMark hhyphen₀ hm, hfront.count hm]

/-! ## Ordinals and commands -/

theorem ordinal_clear {d : Char} {word : List Char} (h : ordinalWord? d = some word) :
    [d, 't', 'h'].any isPlain = false ∧ word.any isPlain = false := by
  unfold ordinalWord? at h
  split at h <;> cases h <;> decide

theorem Spelled.count {next fresh : Bool} (h : Spelled next fresh cs ds) (hm : isPlain m = true) :
    ds.count m = cs.count m := by
  induction h with
  | nil => rfl
  | @spelled d word cs ds hword _ ih =>
    obtain ⟨hordinal, hletters⟩ := ordinal_clear hword
    have hsplit : d :: 't' :: 'h' :: cs = [d, 't', 'h'] ++ cs := rfl
    rw [hsplit, List.count_append, List.count_append,
      List.count_eq_zero.2 (not_mem_of_clear hordinal hm),
      List.count_eq_zero.2 (not_mem_of_clear hletters hm), ih]
  | kept _ _ ih => rw [List.count_cons, List.count_cons, ih]

theorem Spelled.eq_nil_iff {next fresh : Bool} (h : Spelled next fresh cs ds) :
    ds = [] ↔ cs = [] := by
  cases h with
  | nil => rfl
  | spelled hword _ =>
    obtain ⟨_, f, rest, rfl, _⟩ := ordinalWord_letters hword
    simp
  | kept => simp

theorem replaced_labelIdentifier (label : String) :
    Replaced ('c' :: ['o', 'm', 'm', 'a', 'n', 'd']) ('c' :: ['m', 'd'])
      (spellOrdinals true (labelHead label.toList)) (labelIdentifier label).toList := by
  unfold labelIdentifier
  rw [String.toList_ofList]
  exact replaced_replaceAll (by decide) _ _

theorem count_labelIdentifier (label : String) (hm : isPlain m = true) :
    (labelIdentifier label).toList.count m = (labelHead label.toList).count m := by
  rw [(replaced_labelIdentifier label).count (not_mem_of_clear (by decide) hm)
    (not_mem_of_clear (by decide) hm), (spelled_spellOrdinals true _).count hm]

/-- What is plain in the accessor stands in the label before its slash. -/
theorem mem_of_mem_labelIdentifier {label : String} (hm : isPlain m = true)
    (h : m ∈ (labelIdentifier label).toList) :
    m ∈ ink (beforeSlash label.toList) := by
  rw [← List.count_pos_iff, count_labelIdentifier label hm, List.count_pos_iff] at h
  exact mem_of_mem_labelHead hm h

theorem not_isWhite_of_mem_labelIdentifier {label : String}
    (h : m ∈ (labelIdentifier label).toList) : isWhite m = false := by
  rw [← Bool.not_eq_true]
  intro hwhite
  have hink := mem_of_mem_labelIdentifier (by simp [isPlain, hwhite]) h
  simp [ink, hwhite] at hink

theorem ne_slash_of_mem_labelIdentifier {label : String}
    (h : m ∈ (labelIdentifier label).toList) : m ≠ '/' := by
  rintro rfl
  have hfront := List.mem_of_mem_filter (mem_of_mem_labelIdentifier (by decide) h)
  simpa using List.mem_takeWhile_imp hfront

theorem no_command_left (label : String) :
    ¬ "command".toList <:+: (labelIdentifier label).toList :=
  (replaced_labelIdentifier label).none_left (by decide) (by decide) fun rest h => by simp at h

theorem isBlank_iff {label : String} : isBlank label = true ↔ ink label.toList = [] := by
  simp [isBlank, ink]

theorem labelIdentifier_eq_empty_iff (label : String) :
    labelIdentifier label = "" ↔
      isBlank label = true ∨ (ink label.toList).head? = some '/' := by
  rw [← String.toList_eq_nil_iff,
    (replaced_labelIdentifier label).eq_nil_iff (by decide) (by decide),
    (spelled_spellOrdinals true _).eq_nil_iff, labelHead_eq_nil_iff, ink_beforeSlash, isBlank_iff]
  cases ink label.toList with
  | nil => simp [beforeSlash]
  | cons c cs => simp [beforeSlash]

/-- A command has a parameter without an accessor exactly for the labels that start with a slash. -/
theorem nameless_iff (v : EnumValue) (label : String) :
    (∃ q ∈ (Command.ofValue v).params, q.label = label ∧ q.name = "") ↔
      (∃ p ∈ v.params, p.label = some label) ∧ (ink label.toList).head? = some '/' := by
  constructor
  · rintro ⟨q, hq, rfl, hname⟩
    obtain ⟨p, hp, hparam⟩ := List.mem_filterMap.1 hq
    unfold CommandParam.ofParam? at hparam
    split at hparam
    · cases hparam
    · rename_i label hlabel
      split at hparam
      · cases hparam
      · rename_i hblank
        cases hparam
        exact ⟨⟨p, hp, hlabel⟩, ((labelIdentifier_eq_empty_iff label).1 hname).resolve_left hblank⟩
  · rintro ⟨⟨p, hp, hlabel⟩, hslash⟩
    have hblank : isBlank label = false := by
      rw [← Bool.not_eq_true, isBlank_iff]
      intro hink
      rw [hink] at hslash
      cases hslash
    have hparam : CommandParam.ofParam? p = some
        { index := p.index, name := labelIdentifier label, label, units := p.units
          minValue := p.minValue, maxValue := p.maxValue, increment := p.increment
          description := p.description } := by
      simp [CommandParam.ofParam?, hlabel, hblank]
    exact ⟨_, List.mem_filterMap.2 ⟨p, hp, hparam⟩, rfl,
      (labelIdentifier_eq_empty_iff label).2 (.inr hslash)⟩

/-- An accessor holds no white space, no slash and no `command`.  It is empty for a blank label,
which no command shows, and for one that starts with a slash.  Where the label's part before its
first slash ends in neither mark, all its hyphens but two and all its points but one stay. -/
theorem the_part_before_the_slash_shapes_the_accessor (label : String) :
    (∀ c ∈ (labelIdentifier label).toList, isWhite c = false ∧ c ≠ '/') ∧
      ¬ "command".toList <:+: (labelIdentifier label).toList ∧
      (labelIdentifier label = "" ↔
        isBlank label = true ∨ (ink label.toList).head? = some '/') ∧
      (∀ v, (∃ q ∈ (Command.ofValue v).params, q.label = label ∧ q.name = "") ↔
        (∃ p ∈ v.params, p.label = some label) ∧ (ink label.toList).head? = some '/') ∧
      ((ink (beforeSlash label.toList)).getLast? ≠ some '-' →
        (ink (beforeSlash label.toList)).getLast? ≠ some '.' →
        (labelIdentifier label).toList.count '-' = (beforeSlash label.toList).count '-' - 2 ∧
          (labelIdentifier label).toList.count '.' = (beforeSlash label.toList).count '.' - 1) := by
  have hclean (c : Char) (hc : c ∈ (labelIdentifier label).toList) :
      isWhite c = false ∧ c ≠ '/' :=
    ⟨not_isWhite_of_mem_labelIdentifier hc, ne_slash_of_mem_labelIdentifier hc⟩
  have hink (m : Char) (hm : isWhite m = false) :
      (ink (beforeSlash label.toList)).count m = (beforeSlash label.toList).count m :=
    List.count_filter (by simp [hm])
  refine ⟨hclean, no_command_left label, labelIdentifier_eq_empty_iff label,
    fun v => nameless_iff v label, fun hhyphen hpoint => ⟨?_, ?_⟩⟩
  · rw [count_labelIdentifier label rfl, count_labelHead rfl hhyphen hpoint, hink '-' rfl]
    rfl
  · rw [count_labelIdentifier label rfl, count_labelHead rfl hhyphen hpoint, hink '.' rfl]
    rfl

/-- Of three hyphens and two points before the slash one each stays. -/
theorem one_hyphen_and_one_point_stay :
    let label := "Pre-Arm fail-safe on-off v1.2.3 / command"
    let part := beforeSlash label.toList
    ((ink part).getLast? ≠ some '-' ∧ (ink part).getLast? ≠ some '.') ∧
      labelIdentifier label = "preArmFailSafeOn-offV12.3" ∧
      (labelIdentifier label).toList.count '-' = 1 ∧
      (labelIdentifier label).toList.count '.' = 1 := by
  intro label part
  have hhyphen : (ink part).getLast? ≠ some '-' := by decide +kernel
  have hpoint : (ink part).getLast? ≠ some '.' := by decide +kernel
  have hthree : part.count '-' = 3 := by decide +kernel
  have htwo : part.count '.' = 2 := by decide +kernel
  obtain ⟨_, _, _, _, hcounts⟩ := the_part_before_the_slash_shapes_the_accessor label
  obtain ⟨hhyphens, hpoints⟩ := hcounts hhyphen hpoint
  exact ⟨⟨hhyphen, hpoint⟩, by decide +kernel, hhyphens.trans (by rw [hthree]),
    hpoints.trans (by rw [htwo])⟩

end Naming

end MavDialect
