-- What a character in another case was before.  A case table is read backwards: which code points
-- does it map to this one, or to several with this one among them?  Few characters have a capital
-- letter as their upper case, and lower-casing makes no capital letter, no hyphen and no
-- underscore.
import MavDialect.Proofs.CaseMapping

namespace MavDialect.Text

variable {runs : List CaseRun} {expansions : List (Nat × List Nat)} {c x : Char} {cs : List Char}

/-! ## Tables read backwards -/

/-- The code point that the run would move to `n`, when it lies between the ends of the run. -/
def CaseRun.origin? (run : CaseRun) (n : Nat) : Option Nat :=
  let m := (n - run.shift).toNat
  if run.first ≤ m && m ≤ run.last then some m else none

/-- Every code point that a table maps to `n`, or to several with `n` among them. -/
def origins (runs : List CaseRun) (expansions : List (Nat × List Nat)) (n : Nat) : List Nat :=
  runs.filterMap (·.origin? n) ++ (expansions.filter (·.2.contains n)).map (·.1)

theorem toNat_of_ofNat_eq {n : Nat} (h : Char.ofNat n = x) (hx : x ≠ '\x00') : n = x.toNat := by
  subst h
  by_cases hvalid : n.isValidChar
  · rw [Char.ofNat, dif_pos hvalid]
    rfl
  · rw [Char.ofNat, dif_neg hvalid] at hx
    exact absurd rfl hx

/-- What is found in an image comes from a character that stays as it is, or from an origin. -/
theorem mem_mapCase (hx : x ≠ '\x00') (h : x ∈ mapCase runs expansions c) :
    c = x ∧ mapCase runs expansions x = [x] ∨ c.toNat ∈ origins runs expansions x.toNat := by
  have himage := h
  unfold mapCase at h
  split at h
  · rename_i codes hlookup
    obtain ⟨before, after, rfl, _⟩ := List.lookup_eq_some_iff.1 hlookup
    obtain ⟨n, hn, hchar⟩ := List.mem_map.1 h
    rw [toNat_of_ofNat_eq hchar hx] at hn
    have hexpansion : (c.toNat, codes) ∈ (before ++ (c.toNat, codes) :: after).filter
        (·.2.contains x.toNat) :=
      List.mem_filter.2 ⟨by simp, List.contains_iff_mem.2 hn⟩
    exact .inr (List.mem_append_right _ (List.mem_map_of_mem hexpansion))
  · rename_i hnone
    have hchar := (List.mem_singleton.1 h).symm
    rcases shiftOf_cases c.toNat runs with hzero | ⟨run, hrun, hfirst, hlast, hshift⟩
    · rw [hzero] at hchar
      have hsame : c = x := by simpa [Char.ofNat_toNat] using hchar
      subst hsame
      exact .inl ⟨rfl, by simp [mapCase, hnone, hzero, Char.ofNat_toNat]⟩
    · -- the shift does not go below zero, since `x` is not the null character
      have hcode := toNat_of_ofNat_eq hchar hx
      have hpos : 0 < x.toNat := Nat.pos_of_ne_zero fun hzero => hx (by
        rw [← Char.ofNat_toNat x, hzero])
      have horigin : (x.toNat - run.shift).toNat = c.toNat := by
        rw [hshift] at hcode
        omega
      have hfound : run.origin? x.toNat = some c.toNat := by
        simp only [CaseRun.origin?, horigin, hfirst, hlast, decide_true, Bool.and_self, if_true]
      exact .inr (List.mem_append_left _ (List.mem_filterMap.2 ⟨run, hrun, hfound⟩))

/-- What the table makes of no other character comes from itself. -/
theorem eq_of_mem_mapCase (hx : x ≠ '\x00') (hnone : origins runs expansions x.toNat = [])
    (h : x ∈ mapCase runs expansions c) : c = x := by
  rcases mem_mapCase hx h with ⟨hsame, _⟩ | horigin
  · exact hsame
  · simp [hnone] at horigin

/-- What the table makes of no other character, and changes itself, is found in no image. -/
theorem not_mem_mapCase (hx : x ≠ '\x00') (hnone : origins runs expansions x.toNat = [])
    (hchanged : mapCase runs expansions x ≠ [x]) (c : Char) : x ∉ mapCase runs expansions c := by
  intro h
  rcases mem_mapCase hx h with ⟨_, hkept⟩ | horigin
  · exact hchanged hkept
  · simp [hnone] at horigin

end MavDialect.Text
