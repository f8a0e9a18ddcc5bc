-- Lower-casing a text part by part.  The capital sigma alone has two lower cases, and of what
-- stands before or after it one thing counts: whether the next letter, past what does not separate,
-- has a case.  White space, the hyphen and the underscore have no case and do separate, so a text
-- is lower case on their left and on their right as if nothing stood on the other side.
import MavDialect.Proofs.CaseOrigins

namespace MavDialect.Text

variable {c m x : Char} {before other cs ds : List Char}

/-! ## What a sigma sees -/

theorem meetsCased_cons (c : Char) (cs : List Char) :
    meetsCased (c :: cs) = if isCaseIgnorable c then meetsCased cs else isCased c := by
  by_cases hc : isCaseIgnorable c <;> simp [meetsCased, hc]

theorem lowerBetween_congr {after rest : List Char} (hbefore : meetsCased before = meetsCased other)
    (hafter : meetsCased after = meetsCased rest) (c : Char) :
    lowerBetween before after c = lowerBetween other rest c := by
  unfold lowerBetween endsWord
  rw [hbefore, hafter]

/-- Texts that meet alike may stand before each other's rest. -/
theorem lowerAfter_congr (h : meetsCased before = meetsCased other) (cs : List Char) :
    lowerAfter before cs = lowerAfter other cs := by
  induction cs generalizing before other with
  | nil => rfl
  | cons c cs ih =>
    have hnext : meetsCased (c :: before) = meetsCased (c :: other) := by
      rw [meetsCased_cons, meetsCased_cons, h]
    rw [lowerAfter_cons, lowerAfter_cons, lowerBetween_congr h rfl, ih hnext]

/-! ## What keeps two sides apart -/

/-- The character has no case, and a letter beyond it is not looked for. -/
structure Separates (m : Char) : Prop where
  caseless : isCased m = false
  stops : isCaseIgnorable m = false
  lower_eq : lower m = [m]

namespace Separates

theorem meetsCased_cons (h : Separates m) (cs : List Char) : meetsCased (m :: cs) = false := by
  rw [Text.meetsCased_cons, h.stops, h.caseless]
  rfl

theorem meetsCased_append (h : Separates m) (cs ds : List Char) :
    meetsCased (cs ++ m :: ds) = meetsCased cs := by
  induction cs with
  | nil => exact h.meetsCased_cons ds
  | cons c cs ih => rw [List.cons_append, Text.meetsCased_cons, Text.meetsCased_cons, ih]

theorem lowerBetween_eq (h : Separates m) (before after : List Char) :
    lowerBetween before after m = [m] := by
  have hsigma : m ≠ 'Σ' := by
    rintro rfl
    exact absurd h.caseless (by decide +kernel)
  rw [lowerBetween, if_neg hsigma, h.lower_eq]

/-- A text is lower-cased on each side for itself. -/
theorem lowerAfter_append (h : Separates m) (before cs ds : List Char) :
    lowerAfter before (cs ++ m :: ds) = lowerAfter before cs ++ m :: lowerAll ds := by
  induction cs generalizing before with
  | nil =>
    have hnothing : meetsCased (m :: before) = meetsCased [] := h.meetsCased_cons before
    rw [List.nil_append, lowerAfter_cons, h.lowerBetween_eq, lowerAfter_congr hnothing]
    rfl
  | cons c cs ih =>
    rw [List.cons_append, lowerAfter_cons, lowerAfter_cons, ih,
      lowerBetween_congr rfl (h.meetsCased_append cs ds), List.append_assoc]

theorem lowerAll_append (h : Separates m) (cs ds : List Char) :
    lowerAll (cs ++ m :: ds) = lowerAll cs ++ m :: lowerAll ds :=
  h.lowerAfter_append [] cs ds

end Separates

/-- What lies in one of these ranges lies in none of the others. -/
theorem inRanges_eq_false {n : Nat} {ranges others : List (Nat × Nat)}
    (h : inRanges n ranges = true)
    (hapart : ∀ r ∈ ranges, ∀ s ∈ others, r.2 < s.1 ∨ s.2 < r.1) : inRanges n others = false := by
  rw [← Bool.not_eq_true]
  intro hother
  obtain ⟨r, hr, hlo, hhi⟩ := exists_of_inRanges h
  obtain ⟨s, hs, hlow, hhigh⟩ := exists_of_inRanges hother
  rcases hapart r hr s hs with hout | hout <;> omega

theorem separates_of_isWhite (h : isWhite c = true) : Separates c where
  caseless := inRanges_eq_false h (by decide +kernel)
  stops := inRanges_eq_false h (by decide +kernel)
  lower_eq := by
    have hplain : isPlain c = true := by simp [isPlain, h]
    rcases caseImage_lower c with hkept | ⟨hother, _⟩
    · exact hkept
    · rw [hplain] at hother
      cases hother

/-! ## What a text may end in -/

theorem mem_lowerBetween {after : List Char} (h : x ∈ lowerBetween before after c) :
    x ∈ lower c ∨ x = 'ς' ∨ x = 'σ' := by
  unfold lowerBetween at h
  split at h
  · rcases List.mem_singleton.1 h with rfl
    split
    · exact .inr (.inl rfl)
    · exact .inr (.inr rfl)
  · exact .inl h

theorem exists_of_mem_lowerAfter (h : x ∈ lowerAfter before cs) :
    ∃ c ∈ cs, x ∈ lower c ∨ x = 'ς' ∨ x = 'σ' := by
  induction cs generalizing before with
  | nil => simp [lowerAfter] at h
  | cons c cs ih =>
    rw [lowerAfter_cons] at h
    rcases List.mem_append.1 h with hfirst | hrest
    · exact ⟨c, List.mem_cons_self, mem_lowerBetween hfirst⟩
    · obtain ⟨d, hd, hx⟩ := ih hrest
      exact ⟨d, List.mem_cons_of_mem _ hd, hx⟩

end MavDialect.Text
