-- What a change of case does to a text.  White space, hyphens, points and slashes have no case:
-- they stay, and no other character becomes one of them.  So these characters stand in the new text
-- as they stood in the old one, and whatever is between them does not get lost.
import MavDialect.Text.Case
import MavDialect.Text.White
import Mathlib.Data.List.Basic

namespace MavDialect.Text

/-! ## The tables -/

/-- White space, the hyphen, the point or the slash. -/
def isPlain (c : Char) : Bool := isWhite c || c == '-' || c == '.' || c == '/'

theorem isWhite_of_not_plain {c : Char} (h : isPlain c = false) : isWhite c = false := by
  simp only [isPlain, Bool.or_eq_false_iff] at h
  exact h.1.1.1

/-- The code points of plain characters. -/
def plainRanges : List (Nat × Nat) := whiteRanges ++ [(0x2D, 0x2F)]

theorem exists_range_of_isPlain {c : Char} (h : isPlain c = true) :
    ∃ r ∈ plainRanges, r.1 ≤ c.toNat ∧ c.toNat ≤ r.2 := by
  have hmark (hc : c = '-' ∨ c = '.' ∨ c = '/') :
      ∃ r ∈ plainRanges, r.1 ≤ c.toNat ∧ c.toNat ≤ r.2 := by
    refine ⟨(0x2D, 0x2F), by decide, ?_⟩
    rcases hc with rfl | rfl | rfl <;> decide
  simp only [isPlain, Bool.or_eq_true, beq_iff_eq] at h
  rcases h with ((hwhite | h) | h) | h
  · obtain ⟨r, hr, hin⟩ := exists_of_inRanges hwhite
    exact ⟨r, List.mem_append_left _ hr, hin⟩
  · exact hmark (.inl h)
  · exact hmark (.inr (.inl h))
  · exact hmark (.inr (.inr h))

/-- From `first` to `last` no code point is a plain character's. -/
def ClearOfPlain (first last : Int) : Prop := ∀ r ∈ plainRanges, last < r.1 ∨ r.2 < first

instance (first last : Int) : Decidable (ClearOfPlain first last) :=
  inferInstanceAs (Decidable (∀ r ∈ plainRanges, _))

theorem isPlain_of_clear {c : Char} {first last : Int} (h : ClearOfPlain first last)
    (hfirst : first ≤ c.toNat) (hlast : c.toNat ≤ last) : isPlain c = false := by
  rw [← Bool.not_eq_true]
  intro hplain
  obtain ⟨r, hr, hlo, hhi⟩ := exists_range_of_isPlain hplain
  rcases h r hr with hout | hout <;> omega

/-- Nothing plain stands in a table of case mappings, neither as what is mapped nor as its image. -/
structure CaseTable (runs : List CaseRun) (expansions : List (Nat × List Nat)) : Prop where
  moved : ∀ run ∈ runs, ClearOfPlain run.first run.last
  shifted : ∀ run ∈ runs, ClearOfPlain (run.first + run.shift) (run.last + run.shift)
  expanded : ∀ e ∈ expansions, ClearOfPlain e.1 e.1
  expansion : ∀ e ∈ expansions, e.2 ≠ [] ∧ ∀ n ∈ e.2, ClearOfPlain n n

theorem caseTable_upper : CaseTable upperRuns upperExpansions where
  moved := by decide +kernel
  shifted := by decide +kernel
  expanded := by decide +kernel
  expansion := by decide +kernel

theorem caseTable_lower : CaseTable lowerRuns lowerExpansions where
  moved := by decide +kernel
  shifted := by decide +kernel
  expanded := by decide +kernel
  expansion := by decide +kernel

theorem shiftOf_cases (n : Nat) (runs : List CaseRun) :
    shiftOf n runs = 0 ∨
      ∃ run ∈ runs, run.first ≤ n ∧ n ≤ run.last ∧ shiftOf n runs = run.shift := by
  induction runs with
  | nil => exact .inl rfl
  | cons run runs ih =>
    unfold shiftOf
    split
    · exact .inl rfl
    · split
      · rename_i hcovers
        simp only [CaseRun.covers, Bool.and_eq_true, decide_eq_true_eq] at hcovers
        exact .inr ⟨run, List.mem_cons_self, hcovers.1.1, hcovers.1.2, rfl⟩
      · rcases ih with hzero | ⟨found, hmem, hfound⟩
        · exact .inl hzero
        · exact .inr ⟨found, List.mem_cons_of_mem _ hmem, hfound⟩

/-- A code point that is no character's is read as the null character, which is not plain either. -/
theorem isPlain_ofNat {n : Nat} (h : ClearOfPlain n n) : isPlain (Char.ofNat n) = false := by
  by_cases hvalid : n.isValidChar
  · rw [Char.ofNat, dif_pos hvalid]
    exact isPlain_of_clear h (Int.le_refl n) (Int.le_refl n)
  · rw [Char.ofNat, dif_neg hvalid]
    rfl

/-! ## One character -/

/-- What may stand for a character in another case: the character, or, when it is not plain, one or
more characters that are not plain. -/
def CaseImage (c : Char) (image : List Char) : Prop :=
  image = [c] ∨ isPlain c = false ∧ image ≠ [] ∧ image.any isPlain = false

theorem not_mem_of_clear {m : Char} {cs : List Char} (h : cs.any isPlain = false)
    (hm : isPlain m = true) : m ∉ cs :=
  fun hmem => List.any_eq_false.1 h m hmem hm

/-- A plain character comes from itself only. -/
theorem CaseImage.plain {c m : Char} {image : List Char} (h : CaseImage c image)
    (hm : isPlain m = true) : image = [c] ∨ image ≠ [] ∧ m ∉ image ∧ c ≠ m := by
  rcases h with hkept | ⟨hc, hne, hclear⟩
  · exact .inl hkept
  · refine .inr ⟨hne, not_mem_of_clear hclear hm, ?_⟩
    rintro rfl
    rw [hc] at hm
    cases hm

theorem CaseTable.caseImage {runs : List CaseRun} {expansions : List (Nat × List Nat)}
    (h : CaseTable runs expansions) (c : Char) : CaseImage c (mapCase runs expansions c) := by
  unfold mapCase
  split
  · rename_i codes hlookup
    obtain ⟨before, after, rfl, _⟩ := List.lookup_eq_some_iff.1 hlookup
    have hmem : (c.toNat, codes) ∈ before ++ (c.toNat, codes) :: after := by simp
    obtain ⟨hne, hcodes⟩ := h.expansion _ hmem
    refine .inr ⟨isPlain_of_clear (h.expanded _ hmem) (by simp) (by simp), by simpa using hne, ?_⟩
    rw [List.any_map, List.any_eq_false]
    intro n hn
    rw [Function.comp_apply, isPlain_ofNat (hcodes n hn)]
    exact Bool.false_ne_true
  · rcases shiftOf_cases c.toNat runs with hzero | ⟨run, hmem, hfirst, hlast, hshift⟩
    · rw [hzero]
      exact .inl (by simp [Char.ofNat_toNat])
    · have hc : isPlain c = false := isPlain_of_clear (h.moved run hmem) (by omega) (by omega)
      refine .inr ⟨hc, by simp, ?_⟩
      rw [hshift, List.any_cons, List.any_nil, Bool.or_false]
      refine isPlain_ofNat fun r hr => ?_
      -- A shift never goes below zero, but that need not be known of the table.
      have hzero : ClearOfPlain 0 0 := by decide
      rcases h.shifted run hmem r hr with hout | hout <;> rcases hzero r hr with hlo | hhi <;> omega

theorem caseImage_upper (c : Char) : CaseImage c (upper c) := caseTable_upper.caseImage c

theorem caseImage_lower (c : Char) : CaseImage c (lower c) := caseTable_lower.caseImage c

/-! ## A text -/

theorem forall_ne_of_not_mem {m : Char} {cs : List Char} (h : m ∉ cs) :
    ∀ c ∈ cs, decide (c ≠ m) = true := by
  intro c hc
  rw [decide_eq_true_iff]
  rintro rfl
  exact h hc

/-- The second text is the first one with an image for each character. -/
inductive Recased : List Char → List Char → Prop
  | nil : Recased [] []
  | image {c : Char} {image cs ds : List Char} (h : CaseImage c image) (rest : Recased cs ds) :
      Recased (c :: cs) (image ++ ds)

/-- The characters that are no white space. -/
def ink (cs : List Char) : List Char := cs.filter fun c => !isWhite c

/-- The lower case of a character that stands between these texts. -/
def lowerBetween (before after : List Char) (c : Char) : List Char :=
  if c = 'Σ' then [if endsWord before after then 'ς' else 'σ'] else lower c

theorem lowerAfter_cons (before : List Char) (c : Char) (cs : List Char) :
    lowerAfter before (c :: cs) = lowerBetween before cs c ++ lowerAfter (c :: before) cs := rfl

theorem caseImage_lowerBetween (before after : List Char) (c : Char) :
    CaseImage c (lowerBetween before after c) := by
  unfold lowerBetween
  split
  · rename_i hsigma
    subst hsigma
    refine .inr ⟨by decide, by simp, ?_⟩
    split <;> decide
  · exact caseImage_lower c

theorem recased_lowerAfter (before cs : List Char) : Recased cs (lowerAfter before cs) := by
  induction cs generalizing before with
  | nil => exact .nil
  | cons c cs ih => exact .image (caseImage_lowerBetween before cs c) (ih (c :: before))

theorem recased_lowerAll (cs : List Char) : Recased cs (lowerAll cs) := recased_lowerAfter [] cs

namespace Recased

variable {c m : Char} {image cs ds es : List Char}

theorem kept (h : Recased cs ds) : Recased (c :: cs) (c :: ds) := h.image (.inl rfl)

theorem refl (cs : List Char) : Recased cs cs := by
  induction cs with
  | nil => exact .nil
  | cons c cs ih => exact ih.kept

theorem append_left (front : List Char) (h : Recased cs ds) :
    Recased (front ++ cs) (front ++ ds) := by
  induction front with
  | nil => exact h
  | cons c front ih => exact ih.kept

theorem eq_nil_iff (h : Recased cs ds) : ds = [] ↔ cs = [] := by
  cases h with
  | nil => rfl
  | image h _ => rcases h with rfl | ⟨_, hne, _⟩ <;> simp [*]

/-- A plain character stands as often as before. -/
theorem count (h : Recased cs ds) (hm : isPlain m = true) : ds.count m = cs.count m := by
  induction h with
  | nil => rfl
  | image himage _ ih =>
    rcases himage.plain hm with rfl | ⟨_, hmem, hc⟩
    · rw [List.singleton_append, List.count_cons, List.count_cons, ih]
    · rw [List.count_append, List.count_eq_zero.2 hmem, List.count_cons_of_ne hc, ih, Nat.zero_add]

theorem mem_iff (h : Recased cs ds) (hm : isPlain m = true) : m ∈ ds ↔ m ∈ cs := by
  rw [← List.count_pos_iff, ← List.count_pos_iff, h.count hm]

theorem append_inv {front : List Char} (h : Recased (front ++ cs) es) :
    ∃ image ds, es = image ++ ds ∧ Recased front image ∧ Recased cs ds := by
  induction front generalizing es with
  | nil => exact ⟨[], es, rfl, .nil, h⟩
  | cons c front ih =>
    cases h with
    | image himage rest =>
      obtain ⟨more, ds, rfl, hmore, hds⟩ := ih rest
      exact ⟨_, ds, (List.append_assoc ..).symm, .image himage hmore, hds⟩

theorem caseImage (h : Recased image ds) (himage : CaseImage c image) : CaseImage c ds := by
  rcases himage with rfl | ⟨hc, hne, hclear⟩
  · cases h with
    | image himage rest =>
      cases rest
      rwa [List.append_nil]
  · refine .inr ⟨hc, mt h.eq_nil_iff.1 hne, List.any_eq_false.2 fun d hd hplain => ?_⟩
    exact not_mem_of_clear hclear hplain ((h.mem_iff hplain).1 hd)

theorem trans (h : Recased cs ds) (h' : Recased ds es) : Recased cs es := by
  induction h generalizing es with
  | nil => exact h'
  | image himage _ ih =>
    obtain ⟨image, more, rfl, hchanged, hmore⟩ := h'.append_inv
    exact .image (hchanged.caseImage himage) (ih hmore)

/-- A text ends in a plain character when it did before. -/
theorem getLast?_iff (h : Recased cs ds) (hm : isPlain m = true) :
    ds.getLast? = some m ↔ cs.getLast? = some m := by
  induction h with
  | nil => rfl
  | @image c image cs ds himage rest ih =>
    by_cases hcs : cs = []
    · rw [rest.eq_nil_iff.2 hcs, hcs, List.append_nil]
      rcases himage.plain hm with rfl | ⟨_, hmem, hc⟩
      · rfl
      · refine iff_of_false (fun hlast => hmem (List.mem_of_getLast? hlast)) ?_
        simpa using hc
    · rw [List.getLast?_append_of_ne_nil _ (mt rest.eq_nil_iff.1 hcs), ih,
        ← List.singleton_append, List.getLast?_append_of_ne_nil _ hcs]

/-- What stands before a plain character goes on standing before it. -/
theorem takeWhile (h : Recased cs ds) (hm : isPlain m = true) :
    Recased (cs.takeWhile (· ≠ m)) (ds.takeWhile (· ≠ m)) := by
  induction h with
  | nil => exact .nil
  | @image c image cs ds himage _ ih =>
    rcases himage.plain hm with rfl | ⟨_, hmem, hc⟩
    · by_cases hc : c = m
      · simp only [hc, List.singleton_append, List.takeWhile_cons, ne_eq, not_true_eq_false,
          decide_false, Bool.false_eq_true, if_false]
        exact .nil
      · simpa [List.takeWhile_cons, hc] using ih.kept
    · rw [List.takeWhile_append_of_pos (forall_ne_of_not_mem hmem),
        List.takeWhile_cons_of_pos (by simpa using hc)]
      exact .image himage ih

theorem ink (h : Recased cs ds) : Recased (ink cs) (ink ds) := by
  induction h with
  | nil => exact .nil
  | @image c image cs ds himage _ ih =>
    rcases himage with rfl | ⟨hc, hne, hclear⟩
    · by_cases hc : isWhite c
      · simpa [Text.ink, hc] using ih
      · simpa [Text.ink, hc] using ih.kept
    · have hfront : Text.ink image = image := List.filter_eq_self.2 fun d hd => by
        have hplain := eq_false_of_ne_true (List.any_eq_false.1 hclear d hd)
        rw [isWhite_of_not_plain hplain, Bool.not_false]
      have hcons : Text.ink (c :: cs) = c :: Text.ink cs := by
        simp [Text.ink, isWhite_of_not_plain hc]
      have happend : Text.ink (image ++ ds) = image ++ Text.ink ds := by
        rw [Text.ink, List.filter_append]
        exact congrArg (· ++ _) hfront
      rw [hcons, happend]
      exact .image (.inr ⟨hc, hne, hclear⟩) ih

end Recased

end MavDialect.Text
