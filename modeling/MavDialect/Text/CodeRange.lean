-- Sets of characters as sorted ranges of code points.  A look-up stops at the first range
-- that does not end before the code point, so a set may be as large as a Unicode property.

namespace MavDialect.Text

/-- `n` lies in one of the ranges, which are sorted and include both their ends. -/
def inRanges (n : Nat) : List (Nat × Nat) → Bool
  | [] => false
  | (lo, hi) :: rest => if n ≤ hi then lo ≤ n else inRanges n rest

/-- What is found lies in a range of the table. -/
theorem exists_of_inRanges {n : Nat} {ranges : List (Nat × Nat)} (h : inRanges n ranges = true) :
    ∃ r ∈ ranges, r.1 ≤ n ∧ n ≤ r.2 := by
  induction ranges with
  | nil => simp [inRanges] at h
  | cons r rest ih =>
    simp only [inRanges] at h
    split at h
    · exact ⟨r, by simp, by simpa using h, by assumption⟩
    · obtain ⟨s, hs, hn⟩ := ih h
      exact ⟨s, List.mem_cons_of_mem _ hs, hn⟩

end MavDialect.Text
