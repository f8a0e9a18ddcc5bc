-- How white space is written in a label.  An accessor tells where white space stands in its label,
-- not what it is or how much: white space starts a hump, it has no case, and a sigma does not look
-- across it.  At the end there is nothing left to hump, so there it does not even tell whether
-- there is any.
import MavDialect.Naming.Identifier
import MavDialect.Proofs.SigmaContext
import MavDialect.Proofs.WhiteSpace

namespace MavDialect

namespace Text

variable {c : Char} {cs ds v w before other image : List Char}

/-- The second text has white space wherever the first one has, but other white space and other
amounts of it, and any or none at the end. -/
inductive Respaced : List Char → List Char → Prop
  | ends {v w : List Char} (hv : White v) (hw : White w) : Respaced v w
  | kept {c : Char} {cs ds : List Char} (hc : isWhite c = false) (rest : Respaced cs ds) :
      Respaced (c :: cs) (c :: ds)
  | run {v w cs ds : List Char} (hv : White v) (hw : White w) (hvne : v ≠ []) (hwne : w ≠ [])
      (rest : Respaced cs ds) : Respaced (v ++ cs) (w ++ ds)

theorem meetsCased_white_append (hv : White v) (hne : v ≠ []) (cs : List Char) :
    meetsCased (v ++ cs) = false := by
  cases v with
  | nil => exact absurd rfl hne
  | cons c v => exact (separates_of_isWhite (hv c List.mem_cons_self)).meetsCased_cons (v ++ cs)

theorem meetsCased_white (hv : White v) : meetsCased v = false := by
  by_cases hne : v = []
  · rw [hne]
    rfl
  · rw [← List.append_nil v, meetsCased_white_append hv hne]

/-- A sigma sees the same through other white space. -/
theorem Respaced.meetsCased_eq (h : Respaced cs ds) : meetsCased cs = meetsCased ds := by
  induction h with
  | ends hv hw => rw [meetsCased_white hv, meetsCased_white hw]
  | kept _ _ ih => rw [meetsCased_cons, meetsCased_cons, ih]
  | run hv hw hvne hwne =>
    rw [meetsCased_white_append hv hvne, meetsCased_white_append hw hwne]

/-- No white space comes about in another case. -/
theorem CaseImage.clean (h : CaseImage c image) (hc : isWhite c = false) :
    image ≠ [] ∧ ∀ d ∈ image, isWhite d = false := by
  rcases h with rfl | ⟨_, hne, hclear⟩
  · simpa using hc
  · exact ⟨hne, fun d hd => isWhite_of_not_plain (by simpa using List.any_eq_false.1 hclear d hd)⟩

end Text

open Text

namespace Naming

variable {cs ds v image before other : List Char} {afterWhite : Bool}

/-! ## Humps -/

theorem humpWhite_append_of_clean (hne : image ≠ []) (hclean : ∀ c ∈ image, isWhite c = false)
    (afterWhite : Bool) (cs : List Char) :
    humpWhite afterWhite (image ++ cs) = humpWhite afterWhite image ++ humpWhite false cs := by
  induction image generalizing afterWhite with
  | nil => exact absurd rfl hne
  | cons c image ih =>
    obtain ⟨hc, hclean⟩ := List.forall_mem_cons.1 hclean
    rw [List.cons_append, humpWhite, humpWhite, hc]
    simp only [Bool.false_eq_true, if_false, List.append_assoc]
    by_cases himage : image = []
    · subst himage
      rfl
    · rw [ih himage hclean false]

/-- White space in lower case is dropped, and what follows it does not depend on what it was. -/
theorem humpWhite_lowerAfter_run (hv : White v) (hne : v ≠ []) (afterWhite : Bool)
    (before cs : List Char) :
    humpWhite afterWhite (lowerAfter before (v ++ cs)) = humpWhite true (lowerAll cs) := by
  induction v generalizing afterWhite before with
  | nil => exact absurd rfl hne
  | cons c v ih =>
    obtain ⟨hc, hv⟩ := List.forall_mem_cons.1 hv
    have hlower := (separates_of_isWhite hc).lowerAfter_append before [] (v ++ cs)
    rw [List.nil_append, lowerAfter, List.nil_append] at hlower
    rw [List.cons_append, hlower, humpWhite, if_pos hc]
    by_cases hrest : v = []
    · subst hrest
      rfl
    · exact ih hv hrest true []

theorem humpWhite_lowerAfter_white (hv : White v) (afterWhite : Bool) (before : List Char) :
    humpWhite afterWhite (lowerAfter before v) = [] := by
  by_cases hne : v = []
  · rw [hne]
    rfl
  · rw [← List.append_nil v, humpWhite_lowerAfter_run hv hne]
    rfl

/-- With other white space a label has the same humps, if a sigma sees the same before it. -/
theorem humpWhite_lowerAfter_eq (h : Respaced cs ds)
    (hbefore : meetsCased before = meetsCased other) (afterWhite : Bool) :
    humpWhite afterWhite (lowerAfter before cs) = humpWhite afterWhite (lowerAfter other ds) := by
  induction h generalizing before other afterWhite with
  | ends hv hw => rw [humpWhite_lowerAfter_white hv, humpWhite_lowerAfter_white hw]
  | @kept c cs ds hc rest ih =>
    obtain ⟨hne, hclean⟩ := (caseImage_lowerBetween before cs c).clean hc
    have hsame := lowerBetween_congr hbefore rest.meetsCased_eq c
    have hnext : meetsCased (c :: before) = meetsCased (c :: other) := by
      rw [meetsCased_cons, meetsCased_cons, hbefore]
    rw [lowerAfter_cons, lowerAfter_cons, ← hsame, humpWhite_append_of_clean hne hclean,
      humpWhite_append_of_clean hne hclean, ih hnext]
  | run hv hw hvne hwne _ ih =>
    rw [humpWhite_lowerAfter_run hv hvne, humpWhite_lowerAfter_run hw hwne]
    exact ih rfl true

/-! ## The law -/

/-- An accessor stays the same when the white space in its label is written in another way, and when
white space is put at the end of the label or taken away from it. -/
theorem an_accessor_does_not_tell_how_white_space_is_written {label other : String}
    (h : Respaced label.toList other.toList) : labelIdentifier label = labelIdentifier other := by
  unfold labelIdentifier labelHead lowerAll
  rw [humpWhite_lowerAfter_eq h rfl]

/-- Two tabs or one space stand between a final sigma and a hyphen, and white space comes at the
end. -/
theorem a_sigma_is_final_before_tabs_and_before_a_space :
    Respaced "ΑΣ\t\t-Σx".toList "ΑΣ -Σx ".toList ∧
      labelIdentifier "ΑΣ\t\t-Σx" = labelIdentifier "ΑΣ -Σx " ∧
      labelIdentifier "ΑΣ -Σx " = "αςΣx" := by
  have htabs : "ΑΣ\t\t-Σx".toList = 'Α' :: 'Σ' :: (['\t', '\t'] ++ ['-', 'Σ', 'x']) := by decide
  have hspace : "ΑΣ -Σx ".toList = 'Α' :: 'Σ' :: ([' '] ++ ['-', 'Σ', 'x', ' ']) := by decide
  have hend : Respaced ['-', 'Σ', 'x'] ['-', 'Σ', 'x', ' '] :=
    .kept (by decide) (.kept (by decide) (.kept (by decide) (.ends (by decide) (by decide))))
  have hrespaced : Respaced "ΑΣ\t\t-Σx".toList "ΑΣ -Σx ".toList := by
    rw [htabs, hspace]
    exact .kept (by decide) (.kept (by decide)
      (.run (by decide) (by decide) (by decide) (by decide) hend))
  exact ⟨hrespaced, an_accessor_does_not_tell_how_white_space_is_written hrespaced,
    by decide +kernel⟩

end Naming

end MavDialect
