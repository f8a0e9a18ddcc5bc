-- Replacing one text by another as a relation between what stands before and after.  The text is
-- taken apart from left to right: the old text is replaced where it begins, and a character is kept
-- where it does not.  Laws: what is counted, what may come first, and when nothing old is left.
import MavDialect.Text.Replace

namespace MavDialect.Text

/-- The second text is the first one with `new` for each `old`. -/
inductive Replaced (old new : List Char) : List Char → List Char → Prop
  | nil : Replaced old new [] []
  | found {cs ds : List Char} (rest : Replaced old new cs ds) :
      Replaced old new (old ++ cs) (new ++ ds)
  | kept {c : Char} {cs ds : List Char} (h : ¬ old <+: c :: cs) (rest : Replaced old new cs ds) :
      Replaced old new (c :: cs) (c :: ds)

theorem replaceFrom_length_append (old new front cs : List Char) :
    replaceFrom old new front.length (front ++ cs) = replaceFrom old new 0 cs := by
  induction front with
  | nil => rfl
  | cons f front ih => exact ih

/-- The occurrences are found from left to right. -/
theorem replaced_replaceAll {old : List Char} (hne : old ≠ []) (new cs : List Char) :
    Replaced old new cs (replaceAll old new cs) := by
  induction hlength : cs.length using Nat.strongRecOn generalizing cs with
  | ind n ih =>
    cases cs with
    | nil => exact .nil
    | cons c cs =>
      unfold replaceAll replaceFrom
      by_cases hprefix : old <+: c :: cs
      · rw [if_pos (List.isPrefixOf_iff_prefix.2 hprefix)]
        obtain ⟨rest, hrest⟩ := hprefix
        cases old with
        | nil => exact absurd rfl hne
        | cons o front =>
          rw [List.cons_append] at hrest
          obtain ⟨rfl, rfl⟩ := List.cons.inj hrest
          have hshorter : rest.length < n := by
            rw [← hlength]
            simp only [List.length_cons, List.length_append]
            omega
          have hskip := replaceFrom_length_append (o :: front) new front rest
          rw [List.length_cons, Nat.add_sub_cancel, hskip]
          exact .found (ih rest.length hshorter rest rfl)
      · rw [if_neg fun h => hprefix (List.isPrefixOf_iff_prefix.1 h)]
        have hshorter : cs.length < n := by
          rw [← hlength]
          exact Nat.lt_succ_self _
        exact .kept hprefix (ih cs.length hshorter cs rfl)

namespace Replaced

variable {old new cs ds : List Char}

/-- A character that neither text holds stands as often as before. -/
theorem count (h : Replaced old new cs ds) {c : Char} (hold : c ∉ old) (hnew : c ∉ new) :
    ds.count c = cs.count c := by
  induction h with
  | nil => rfl
  | found _ ih =>
    rw [List.count_append, List.count_append, List.count_eq_zero.2 hold,
      List.count_eq_zero.2 hnew, ih]
  | kept _ _ ih => rw [List.count_cons, List.count_cons, ih]

theorem eq_nil_iff (h : Replaced old new cs ds) (hold : old ≠ []) (hnew : new ≠ []) :
    ds = [] ↔ cs = [] := by
  cases h with
  | nil => simp
  | found => simp [hold, hnew]
  | kept => simp

variable {first : Char}

/-- Both texts begin with the same character.  What begins without it begins the text after the
replacement as it did before. -/
theorem prefix_iff (h : Replaced (first :: old) (first :: new) cs ds) {front : List Char}
    (hfront : first ∉ front) : front <+: ds ↔ front <+: cs := by
  induction h generalizing front with
  | nil => rfl
  | found _ ih =>
    cases front with
    | nil => simp
    | cons f front =>
      have hf : f ≠ first := by
        rintro rfl
        exact hfront List.mem_cons_self
      simp [hf]
  | kept _ _ ih =>
    cases front with
    | nil => simp
    | cons f front =>
      rw [List.cons_prefix_cons, List.cons_prefix_cons,
        ih fun hmem => hfront (List.mem_cons_of_mem _ hmem)]

/-- What starts with a character begins in no part that lacks it. -/
theorem infix_of_infix_append {front rest tail : List Char} (hfront : first ∉ front)
    (h : first :: tail <:+: front ++ rest) : first :: tail <:+: rest := by
  induction front with
  | nil => exact h
  | cons f front ih =>
    obtain ⟨hf, hfront⟩ := not_or.1 (mt List.mem_cons.2 hfront)
    rcases List.infix_cons_iff.1 h with hprefix | hinfix
    · exact absurd (List.cons_prefix_cons.1 hprefix).1 hf
    · exact ih hfront hinfix

/-- Nothing old is left, and nothing new makes up the old text again, when the old text has its
first character nowhere else and the new text, which has it in front alone, does not begin it. -/
theorem none_left (h : Replaced (first :: old) (first :: new) cs ds) (hold : first ∉ old)
    (hnew : first ∉ new) (hbegin : ∀ rest, ¬ old <+: new ++ rest) :
    ¬ first :: old <:+: ds := by
  induction h with
  | nil => simp
  | found _ ih =>
    intro hinfix
    rcases List.infix_cons_iff.1 hinfix with hprefix | hinfix
    · exact hbegin _ (List.cons_prefix_cons.1 hprefix).2
    · exact ih (infix_of_infix_append hnew hinfix)
  | kept hkept rest ih =>
    intro hinfix
    rcases List.infix_cons_iff.1 hinfix with hprefix | hinfix
    · obtain ⟨hc, htail⟩ := List.cons_prefix_cons.1 hprefix
      exact hkept (List.cons_prefix_cons.2 ⟨hc, (rest.prefix_iff hold).1 htail⟩)
    · exact ih hinfix

end Replaced

end MavDialect.Text
