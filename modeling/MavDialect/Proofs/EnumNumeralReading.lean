-- What is accepted as the number of an enum value, and which number it is.  White space may stand
-- around it; what is between is a power of two, or an integer in one of three bases that fits 128
-- bits.  The number is the one that is written, so nothing is wrapped or cut off, and every number
-- that fits is read back from its decimal notation.
import MavDialect.EnumNumeral
import MavDialect.Proofs.PositionalNotation
import MavDialect.Proofs.WhiteSpace
import Mathlib.Algebra.Group.Int.Defs
import Mathlib.Data.Nat.Cast.Basic

namespace MavDialect

namespace Text

variable {base : Nat} {c : Char} {cs : List Char} {v : Int}

theorem IsDigitFor.not_isWhite {d : Nat} (hbase : base ≤ greatestBase) (h : IsDigitFor base c d) :
    isWhite c = false := by
  simpa using h.satisfies (p := fun c => !isWhite c) greatestBase hbase (by decide)

/-- No white space stands within a number. -/
theorem Signed.clean (hbase : base ≤ greatestBase) (h : Signed base cs v) :
    ∀ c ∈ cs, isWhite c = false := by
  intro c hc
  rcases h.mem_cases hc with ⟨d, hd⟩ | rfl | rfl
  · exact hd.not_isWhite hbase
  · decide
  · decide

end Text

namespace EnumNumeral

open Text

variable {cs : List Char} {v : Int}

/-- The integers of 128 bits. -/
def Fits (v : Int) : Prop := -2 ^ 127 ≤ v ∧ v ≤ 2 ^ 127 - 1

theorem fitsSigned_iff_fits : fitsSigned 128 v ↔ Fits v := by
  have hbound : signedBound 128 = 2 ^ 127 := by decide
  rw [fitsSigned_iff, hbound, Fits]
  omega

/-- A number and its notation: a power of two by its exponent, or a number that fits in the base
that its mark names, or without a mark in the base ten. -/
inductive Written : List Char → Int → Prop
  | power {blank exponent : List Char} {e : Nat} (white : White blank)
      (number : Unsigned 10 exponent e) (small : e < 127) :
      Written ("2**".toList ++ (blank ++ exponent)) (2 ^ e)
  | hexadecimal {mark : Char} {digits : List Char} {v : Int} (marked : mark = 'x' ∨ mark = 'X')
      (number : Signed 16 digits v) (fits : Fits v) : Written ('0' :: mark :: digits) v
  | binary {mark : Char} {digits : List Char} {v : Int} (marked : mark = 'b' ∨ mark = 'B')
      (number : Signed 2 digits v) (fits : Fits v) : Written ('0' :: mark :: digits) v
  | decimal {digits : List Char} {v : Int} (number : Signed 10 digits v) (fits : Fits v) :
      Written digits v

/-! ## The parts -/

theorem inBase?_eq_some_iff {base : Nat} (hbase : base ≤ greatestBase) :
    inBase? base cs = some v ↔ Signed base cs v ∧ Fits v := by
  unfold inBase? integerWithin?
  rw [Option.filter_eq_some_iff, integer?_eq_some_iff hbase, fitsSigned_iff_fits]

theorem power?_eq_some_iff :
    power? cs = some v ↔ ∃ e < 127, Unsigned 10 (trimChars cs) e ∧ v = 2 ^ e := by
  unfold power?
  simp only [Option.map_eq_some_iff, Option.filter_eq_some_iff, decide_eq_true_eq,
    natural?_eq_some_iff (show 10 ≤ greatestBase by decide), Nat.one_shiftLeft]
  constructor
  · rintro ⟨e, ⟨hnumber, hsmall⟩, rfl⟩
    exact ⟨e, hsmall, hnumber, by simp⟩
  · rintro ⟨e, hsmall, hnumber, rfl⟩
    exact ⟨e, ⟨hnumber, hsmall⟩, by simp⟩

/-- Digits and signs mark no other notation. -/
theorem readTrimmed?_of_digits (h : ∀ c ∈ cs, c.isDigit = true ∨ c = '+' ∨ c = '-') :
    readTrimmed? cs = inBase? 10 cs := by
  have hother (c : Char) (hc : ¬ (c.isDigit = true ∨ c = '+' ∨ c = '-')) : c ∉ cs :=
    fun hmem => hc (h c hmem)
  have hpower : dropFront? "2**".toList cs = none := by
    rw [Option.eq_none_iff_forall_ne_some]
    intro rest hrest
    have hstar : '*' ∈ cs := by
      rw [dropFront?_eq_some_iff.1 hrest]
      simp
    exact hother '*' (by decide) hstar
  unfold readTrimmed?
  rw [hpower]
  dsimp only
  split
  · rename_i mark digits
    have hmark (c : Char) (hc : ¬ (c.isDigit = true ∨ c = '+' ∨ c = '-')) : mark ≠ c := by
      rintro rfl
      exact hother mark hc (by simp)
    rw [if_neg, if_neg]
    · rintro (hb | hb)
      · exact hmark 'b' (by decide) hb
      · exact hmark 'B' (by decide) hb
    · rintro (hx | hx)
      · exact hmark 'x' (by decide) hx
      · exact hmark 'X' (by decide) hx
  · rfl

theorem readTrimmed?_of_signed (h : Signed 10 cs v) : readTrimmed? cs = inBase? 10 cs := by
  apply readTrimmed?_of_digits
  intro c hc
  rcases h.mem_cases hc with ⟨d, hd⟩ | hsign
  · exact .inl hd.isDigit
  · exact .inr hsign

/-! ## The whole number -/

/-- No notation begins or ends with white space. -/
theorem Written.bare (h : Written cs v) : Bare cs := by
  cases h with
  | power white number small =>
    have hclean := (Signed.unsigned number).clean (by decide)
    have hne := (Signed.unsigned number).ne_nil
    refine ⟨fun c hc => ?_, fun c hc => ?_⟩
    · cases hc
      decide
    · rw [← List.append_assoc, List.getLast?_append_of_ne_nil _ hne] at hc
      exact hclean c (List.mem_of_getLast? hc)
  | hexadecimal marked number fits =>
    apply bare_of_clean
    have hclean := number.clean (by decide)
    rcases marked with rfl | rfl
    · simpa using ⟨by decide, by decide, hclean⟩
    · simpa using ⟨by decide, by decide, hclean⟩
  | binary marked number fits =>
    apply bare_of_clean
    have hclean := number.clean (by decide)
    rcases marked with rfl | rfl
    · simpa using ⟨by decide, by decide, hclean⟩
    · simpa using ⟨by decide, by decide, hclean⟩
  | decimal number fits => exact bare_of_clean (number.clean (by decide))

theorem readTrimmed?_of_written (h : Written cs v) : readTrimmed? cs = some v := by
  cases h with
  | power white number small =>
    have hbare := bare_of_clean ((Signed.unsigned number).clean (by decide))
    have htrim := trimChars_eq_iff.2 ⟨hbare, _, [], white, white_nil, rfl⟩
    rw [List.append_nil] at htrim
    unfold readTrimmed?
    rw [dropFront?_eq_some_iff.2 rfl]
    refine power?_eq_some_iff.2 ⟨_, small, ?_, rfl⟩
    rwa [htrim]
  | hexadecimal marked number fits =>
    have hread := (inBase?_eq_some_iff (by decide)).2 ⟨number, fits⟩
    rcases marked with rfl | rfl
    · exact hread
    · exact hread
  | binary marked number fits =>
    have hread := (inBase?_eq_some_iff (by decide)).2 ⟨number, fits⟩
    rcases marked with rfl | rfl
    · exact hread
    · exact hread
  | decimal number fits =>
    rw [readTrimmed?_of_signed number]
    exact (inBase?_eq_some_iff (by decide)).2 ⟨number, fits⟩

theorem written_of_readTrimmed? (hbare : Bare cs) (h : readTrimmed? cs = some v) :
    Written cs v := by
  unfold readTrimmed? at h
  split at h
  · rename_i exponent hfront
    obtain ⟨e, hsmall, hnumber, rfl⟩ := power?_eq_some_iff.1 h
    have htrim : trimChars exponent = trimChars exponent := rfl
    obtain ⟨_, blank, after, hblank, hafter, hexponent⟩ := trimChars_eq_iff.1 htrim
    rw [dropFront?_eq_some_iff] at hfront
    -- nothing white follows the exponent, since the text does not end in it
    have hnone : after = [] := by
      rw [← List.getLast?_eq_none_iff, Option.eq_none_iff_forall_ne_some]
      intro c hc
      have hlast : cs.getLast? = some c := by
        rw [hfront, hexponent, ← List.append_assoc, List.getLast?_append, hc]
        rfl
      have hwhite := hafter c (List.mem_of_getLast? hc)
      rw [hbare.2 c hlast] at hwhite
      cases hwhite
    rw [hnone, List.append_nil] at hexponent
    rw [hfront, hexponent]
    exact .power hblank hnumber hsmall
  · split at h
    · rename_i mark digits
      split at h
      · rename_i hmark
        obtain ⟨hnumber, hfits⟩ := (inBase?_eq_some_iff (by decide)).1 h
        exact .hexadecimal hmark hnumber hfits
      · split at h
        · rename_i hmark
          obtain ⟨hnumber, hfits⟩ := (inBase?_eq_some_iff (by decide)).1 h
          exact .binary hmark hnumber hfits
        · obtain ⟨hnumber, hfits⟩ := (inBase?_eq_some_iff (by decide)).1 h
          exact .decimal hnumber hfits
    · obtain ⟨hnumber, hfits⟩ := (inBase?_eq_some_iff (by decide)).1 h
      exact .decimal hnumber hfits

/-- A text is read as a number exactly when it is a notation of that number with white space around
it. -/
theorem read?_eq_some_iff {text : String} :
    read? text = some v ↔ ∃ before body after, White before ∧ White after ∧
      text.toList = before ++ body ++ after ∧ Written body v := by
  unfold read?
  constructor
  · intro h
    obtain ⟨hbare, before, after, hbefore, hafter, htext⟩ := trimChars_eq_iff.1 (Eq.refl _)
    exact ⟨before, _, after, hbefore, hafter, htext, written_of_readTrimmed? hbare h⟩
  · rintro ⟨before, body, after, hbefore, hafter, htext, hwritten⟩
    rw [trimChars_eq_iff.2 ⟨hwritten.bare, before, after, hbefore, hafter, htext⟩]
    exact readTrimmed?_of_written hwritten

theorem Written.fits (h : Written cs v) : Fits v := by
  cases h with
  | hexadecimal marked number fits => exact fits
  | binary marked number fits => exact fits
  | decimal number fits => exact fits
  | @power blank exponent e white number small =>
    have hlt : 2 ^ e < 2 ^ 127 := Nat.pow_lt_pow_right (by decide) small
    have hcast : (2 : Int) ^ e = ((2 ^ e : Nat) : Int) := by simp
    rw [hcast, Fits]
    generalize 2 ^ e = n at hlt
    omega

theorem fits_of_read? {text : String} (h : read? text = some v) : Fits v := by
  obtain ⟨_, _, _, _, _, _, hwritten⟩ := read?_eq_some_iff.1 h
  exact hwritten.fits

theorem fitsSigned_of_read? {text : String} (h : read? text = some v) : fitsSigned 128 v :=
  fitsSigned_iff_fits.2 (fits_of_read? h)

/-- The decimal notation of a number that fits is read as that number. -/
theorem read?_decimalText (h : Fits v) : read? (decimalText v) = some v := by
  have hnumber : Signed 10 (decimal v) v :=
    (integer?_eq_some_iff (by decide)).1 (integer?_decimal v)
  refine read?_eq_some_iff.2 ⟨[], decimal v, [], white_nil, white_nil, ?_, ?_⟩
  · simp [decimalText]
  · exact .decimal hnumber h

/-- What is read as a number, and as which: a text is read as `v` exactly when, apart from white
space around it, it is a power of two with an exponent below 127, a number in base 16 or 2 after
its mark, or a number in base ten, and `v` is the number that it denotes and fits 128 bits.  Decimal
notation is read back for all numbers that fit. -/
theorem numbers_are_read_as_they_are_written :
    (∀ text v, read? text = some v ↔ ∃ before body after, White before ∧ White after ∧
      text.toList = before ++ body ++ after ∧ Written body v) ∧
    (∀ text v, read? text = some v → -2 ^ 127 ≤ v ∧ v ≤ 2 ^ 127 - 1) ∧
    ∀ v, -2 ^ 127 ≤ v → v ≤ 2 ^ 127 - 1 → read? (decimalText v) = some v :=
  ⟨fun _ _ => read?_eq_some_iff, fun _ _ => fits_of_read?,
    fun _ hlo hhi => read?_decimalText ⟨hlo, hhi⟩⟩

/-- A mark in upper case with a sign after it, white space before the exponent, and the least number
of all. -/
theorem a_sign_stands_after_the_mark :
    read? " 0X-7f\n" = some (-127) ∧ read? "2**\t+126" = some (2 ^ 126) ∧
      read? (decimalText (-2 ^ 127)) = some (-2 ^ 127) := by
  obtain ⟨hread, _, hdecimal⟩ := numbers_are_read_as_they_are_written
  have hminus : Signed 16 "-7f".toList (-127) := (integer?_eq_some_iff (by decide)).1 (by decide)
  have hplus : Unsigned 10 "+126".toList 126 := (natural?_eq_some_iff (by decide)).1 (by decide)
  refine ⟨(hread _ _).2 ⟨[' '], "0X-7f".toList, ['\n'], by decide, by decide, by decide, ?_⟩,
    (hread _ _).2 ⟨[], "2**\t+126".toList, [], by decide, by decide, by decide, ?_⟩,
    hdecimal _ (by decide) (by decide)⟩
  · exact .hexadecimal (.inr rfl) hminus (by unfold Fits; decide)
  · have hwhite : White ['\t'] := by decide
    exact .power hwhite hplus (by decide)

end EnumNumeral

end MavDialect
