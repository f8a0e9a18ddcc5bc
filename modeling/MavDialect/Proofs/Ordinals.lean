-- Ordinals in an accessor.  `4th`, `5th` and `6th` are spelled out unless a digit stands before
-- them, but an ordinal that follows one just spelled out is passed over: the end of the first was
-- taken for it.  So of ordinals in a row the second stays, and without two in a row none stays.
import MavDialect.Naming.Identifier
import MavDialect.Proofs.Replacement

namespace MavDialect.Naming

open Text

/-! ## Places in a text -/

/-- Whether a rest may begin after these characters: no digit stands at their end.  Where there are
none, `fresh` says so. -/
def mayBegin (fresh : Bool) (before : List Char) : Bool :=
  before.getLast?.elim fresh fun c => !c.isDigit

theorem mayBegin_cons (fresh : Bool) (c : Char) (before : List Char) :
    mayBegin fresh (c :: before) = mayBegin (!c.isDigit) before := by
  unfold mayBegin
  rw [List.getLast?_cons]
  cases before.getLast? <;> rfl

/-- Somewhere in the text such a rest begins, and no digit stands right before it.  `fresh` says
whether a rest may begin where the text does. -/
def BeginsIn (p : List Char → Prop) (fresh : Bool) (cs : List Char) : Prop :=
  ∃ before after, cs = before ++ after ∧ p after ∧ mayBegin fresh before = true

variable {p : List Char → Prop} {fresh : Bool} {c : Char} {cs : List Char}

theorem beginsIn_nil : BeginsIn p fresh [] ↔ fresh = true ∧ p [] := by
  constructor
  · rintro ⟨before, after, hsplit, hp, hfresh⟩
    obtain ⟨rfl, rfl⟩ := List.append_eq_nil_iff.1 hsplit.symm
    exact ⟨hfresh, hp⟩
  · rintro ⟨hfresh, hp⟩
    exact ⟨[], [], rfl, hp, hfresh⟩

theorem beginsIn_cons :
    BeginsIn p fresh (c :: cs) ↔ fresh = true ∧ p (c :: cs) ∨ BeginsIn p (!c.isDigit) cs := by
  constructor
  · rintro ⟨before, after, hsplit, hp, hfresh⟩
    cases before with
    | nil =>
      rw [List.nil_append] at hsplit
      rw [← hsplit] at hp
      exact .inl ⟨hfresh, hp⟩
    | cons d before =>
      obtain ⟨rfl, rfl⟩ := List.cons.inj hsplit
      rw [mayBegin_cons] at hfresh
      exact .inr ⟨before, after, rfl, hp, hfresh⟩
  · rintro (⟨hfresh, hp⟩ | ⟨before, after, rfl, hp, hfresh⟩)
    · exact ⟨[], c :: cs, rfl, hp, hfresh⟩
    · rw [← mayBegin_cons] at hfresh
      exact ⟨c :: before, after, rfl, hp, hfresh⟩

/-- Where the text may begin with such a rest, it does, or one begins later. -/
theorem beginsIn_true_iff : BeginsIn p true cs ↔ p cs ∨ BeginsIn p false cs := by
  cases cs with
  | nil => simp [beginsIn_nil]
  | cons c cs => simp [beginsIn_cons]

/-! ## Ordinals -/

/-- The digit of an ordinal that is to be spelled out. -/
def IsOrdinal (c : Char) : Prop := c = '4' ∨ c = '5' ∨ c = '6'

instance (c : Char) : Decidable (IsOrdinal c) := inferInstanceAs (Decidable (_ ∨ _))

theorem IsOrdinal.isDigit (h : IsOrdinal c) : c.isDigit = true := by
  rcases h with rfl | rfl | rfl <;> rfl

theorem isOrdinal_of_ordinalWord {word : List Char} (h : ordinalWord? c = some word) :
    IsOrdinal c := by
  unfold ordinalWord? at h
  split at h
  · exact .inl rfl
  · exact .inr (.inl rfl)
  · exact .inr (.inr rfl)
  · cases h

theorem IsOrdinal.exists_ordinalWord (h : IsOrdinal c) : ∃ word, ordinalWord? c = some word := by
  rcases h with rfl | rfl | rfl <;> exact ⟨_, rfl⟩

/-- The text starts with an ordinal. -/
def StartsOrdinal : List Char → Prop
  | [] => False
  | d :: rest => IsOrdinal d ∧ ['t', 'h'] <+: rest

/-- The text starts with two ordinals in a row. -/
def StartsTwo : List Char → Prop
  | [] => False
  | d :: rest => IsOrdinal d ∧ ∃ more, rest = 't' :: 'h' :: more ∧ StartsOrdinal more

/-- An ordinal that no digit stands before. -/
def HasOrdinal (cs : List Char) : Prop := BeginsIn StartsOrdinal true cs

/-- Two ordinals in a row, and no digit before the first. -/
def HasTwoInARow (cs : List Char) : Prop := BeginsIn StartsTwo true cs

theorem startsOrdinal_cons : StartsOrdinal (c :: cs) ↔ IsOrdinal c ∧ ['t', 'h'] <+: cs := Iff.rfl

/-- Over letters that no rest starts with, nothing is found. -/
theorem beginsIn_letters {front : List Char} (hp : ∀ c cs, p (c :: cs) → c.isDigit = true)
    (hne : front ≠ []) (hfront : front.any Char.isDigit = false) :
    BeginsIn p fresh (front ++ cs) ↔ BeginsIn p true cs := by
  induction front generalizing fresh with
  | nil => exact absurd rfl hne
  | cons c front ih =>
    rw [List.any_cons, Bool.or_eq_false_iff] at hfront
    obtain ⟨hc, hfront⟩ := hfront
    have hnone : ¬ p (c :: (front ++ cs)) := by
      intro h
      rw [hp _ _ h] at hc
      cases hc
    rw [List.cons_append, beginsIn_cons, or_iff_right fun h => hnone h.2, hc]
    cases front with
    | nil => rfl
    | cons d front => exact ih (by simp) hfront

theorem isDigit_of_startsOrdinal (c : Char) (cs : List Char) (h : StartsOrdinal (c :: cs)) :
    c.isDigit = true :=
  h.1.isDigit

theorem isDigit_of_startsTwo (c : Char) (cs : List Char) (h : StartsTwo (c :: cs)) :
    c.isDigit = true :=
  h.1.isDigit

theorem StartsTwo.startsOrdinal (h : StartsTwo cs) : StartsOrdinal cs := by
  cases cs with
  | nil => exact h
  | cons c cs =>
    obtain ⟨hc, more, rfl, _⟩ := h
    exact ⟨hc, ⟨more, rfl⟩⟩

/-- After an ordinal comes another one, or two in a row begin later. -/
theorem IsOrdinal.hasTwoInARow_iff (hc : IsOrdinal c) (cs : List Char) :
    HasTwoInARow (c :: 't' :: 'h' :: cs) ↔ StartsOrdinal cs ∨ HasTwoInARow cs := by
  have htwo : StartsTwo (c :: 't' :: 'h' :: cs) ↔ StartsOrdinal cs := by
    simp [StartsTwo, hc]
  have hend : BeginsIn StartsTwo (!c.isDigit) (['t', 'h'] ++ cs) ↔ HasTwoInARow cs :=
    beginsIn_letters isDigit_of_startsTwo (by simp) (by decide)
  unfold HasTwoInARow at *
  rw [List.cons_append, List.singleton_append] at hend
  rw [beginsIn_cons, htwo, hend, and_iff_right rfl]

/-! ## Spelling out -/

/-- What stands for an ordinal are letters, and no ordinal goes on with the first of them. -/
theorem ordinalWord_letters {d : Char} {word : List Char} (h : ordinalWord? d = some word) :
    word.any Char.isDigit = false ∧ ∃ f rest, word = f :: rest ∧ f ≠ 't' ∧ f ≠ 'h' := by
  unfold ordinalWord? at h
  split at h <;> cases h
  · exact ⟨by decide, 'f', _, rfl, by decide, by decide⟩
  · exact ⟨by decide, 'f', _, rfl, by decide, by decide⟩
  · exact ⟨by decide, 's', _, rfl, by decide, by decide⟩

/-- Spells out ordinals where no digit stands before.  `next` says whether that also holds of an
ordinal right after one that was spelled out. -/
def spellFrom (next fresh : Bool) : List Char → List Char
  | [] => []
  | d :: 't' :: 'h' :: rest =>
    match fresh, ordinalWord? d with
    | true, some word => word ++ spellFrom next next rest
    | _, _ => d :: 't' :: 'h' :: spellFrom next true rest
  | c :: rest => c :: spellFrom next (!c.isDigit) rest

theorem spellFrom_false (fresh : Bool) (cs : List Char) :
    spellFrom false fresh cs = spellOrdinals fresh cs := by
  fun_induction spellFrom false fresh cs <;> simp_all [spellOrdinals]

/-- Every ordinal that no digit stands before is spelled out. -/
def spellEvery (cs : List Char) : List Char := spellFrom true true cs

/-- The second text is the first one with its ordinals spelled out. -/
inductive Spelled (next : Bool) : Bool → List Char → List Char → Prop
  | nil {fresh : Bool} : Spelled next fresh [] []
  | spelled {d : Char} {word cs ds : List Char} (h : ordinalWord? d = some word)
      (rest : Spelled next next cs ds) :
      Spelled next true (d :: 't' :: 'h' :: cs) (word ++ ds)
  | kept {fresh : Bool} {c : Char} {cs ds : List Char}
      (h : ¬ (fresh = true ∧ StartsOrdinal (c :: cs))) (rest : Spelled next (!c.isDigit) cs ds) :
      Spelled next fresh (c :: cs) (c :: ds)

theorem spelled_spellFrom (next fresh : Bool) (cs : List Char) :
    Spelled next fresh cs (spellFrom next fresh cs) := by
  fun_induction spellFrom next fresh cs with
  | case1 => exact .nil
  | case2 d rest word hword ih => exact .spelled hword ih
  | case3 fresh d rest hother ih =>
    have hd : ¬ (fresh = true ∧ StartsOrdinal (d :: 't' :: 'h' :: rest)) := by
      rintro ⟨rfl, hordinal, _⟩
      obtain ⟨word, hword⟩ := hordinal.exists_ordinalWord
      exact hother word rfl hword
    have hletter {a : Char} (ha : ¬ IsOrdinal a) (fresh : Bool) (cs : List Char) :
        ¬ (fresh = true ∧ StartsOrdinal (a :: cs)) := fun h => ha h.2.1
    exact .kept hd (.kept (hletter (by decide) _ _) (.kept (hletter (by decide) _ _) ih))
  | case4 fresh c rest hother ih =>
    refine .kept ?_ ih
    rintro ⟨_, _, more, rfl⟩
    exact hother more rfl

theorem spelled_spellOrdinals (fresh : Bool) (cs : List Char) :
    Spelled false fresh cs (spellOrdinals fresh cs) := by
  rw [← spellFrom_false]
  exact spelled_spellFrom false fresh cs

namespace Spelled

variable {next : Bool} {ds : List Char}

/-- Nothing that is spelled out makes the end of an ordinal, or a part of it. -/
theorem letters_iff (h : Spelled next fresh cs ds) {front : List Char}
    (hfront : ∀ a ∈ front, a = 't' ∨ a = 'h') : front <+: ds ↔ front <+: cs := by
  induction h generalizing front with
  | nil => rfl
  | @spelled d word cs ds hword _ _ =>
    cases front with
    | nil => simp
    | cons a front =>
      obtain ⟨_, f, rest, rfl, ht, hh⟩ := ordinalWord_letters hword
      have hd := isOrdinal_of_ordinalWord hword
      have hne : a ≠ f ∧ a ≠ d := by
        rcases hfront a List.mem_cons_self with rfl | rfl <;>
          rcases hd with rfl | rfl | rfl <;> simp [ht.symm, hh.symm]
      simp [hne]
  | kept _ _ ih =>
    cases front with
    | nil => simp
    | cons a front =>
      rw [List.cons_prefix_cons, List.cons_prefix_cons,
        ih fun b hb => hfront b (List.mem_cons_of_mem _ hb)]

theorem startsOrdinal_cons_iff (h : Spelled next fresh cs ds) :
    StartsOrdinal (c :: ds) ↔ StartsOrdinal (c :: cs) := by
  rw [startsOrdinal_cons, startsOrdinal_cons, h.letters_iff (by simp)]

theorem startsOrdinal_iff (h : Spelled next false cs ds) :
    StartsOrdinal ds ↔ StartsOrdinal cs := by
  cases h with
  | nil => rfl
  | kept _ rest => exact rest.startsOrdinal_cons_iff

/-- Where the ordinal after one that was spelled out is passed over, the second of two in a row
stays. -/
theorem beginsIn_iff (h : Spelled false fresh cs ds) :
    BeginsIn StartsOrdinal fresh ds ↔ BeginsIn StartsTwo fresh cs := by
  induction h with
  | nil => simp [beginsIn_nil, StartsOrdinal, StartsTwo]
  | @spelled d word cs ds hword rest ih =>
    obtain ⟨hletters, f, more, rfl, _⟩ := ordinalWord_letters hword
    have htwo := (isOrdinal_of_ordinalWord hword).hasTwoInARow_iff cs
    unfold HasTwoInARow at htwo
    -- The word ends in a letter, so in the new text an ordinal may begin right after it.
    rw [beginsIn_letters isDigit_of_startsOrdinal (by simp) hletters, beginsIn_true_iff, ih,
      rest.startsOrdinal_iff, htwo, beginsIn_true_iff]
    constructor
    · rintro (hstart | hlater)
      · exact .inl hstart
      · exact .inr (.inr hlater)
    · rintro (hstart | htwo | hlater)
      · exact .inl hstart
      · exact .inl htwo.startsOrdinal
      · exact .inr hlater
  | kept hkept rest ih =>
    rw [beginsIn_cons, beginsIn_cons, ih, rest.startsOrdinal_cons_iff, or_iff_right hkept,
      or_iff_right fun h => hkept ⟨h.1, h.2.startsOrdinal⟩]

/-- Where the ordinal after one that was spelled out is spelled out too, none is left. -/
theorem none_left (h : Spelled true fresh cs ds) : ¬ BeginsIn StartsOrdinal fresh ds := by
  induction h with
  | nil => simp [beginsIn_nil, StartsOrdinal]
  | spelled hword _ ih =>
    obtain ⟨hletters, f, more, rfl, _⟩ := ordinalWord_letters hword
    rwa [beginsIn_letters isDigit_of_startsOrdinal (by simp) hletters]
  | kept hkept rest ih =>
    rw [beginsIn_cons, rest.startsOrdinal_cons_iff]
    exact not_or.2 ⟨hkept, ih⟩

theorem unique {es : List Char} (h : Spelled next fresh cs ds) (h' : Spelled next fresh cs es) :
    ds = es := by
  induction h generalizing es with
  | nil => cases h'; rfl
  | spelled hword _ ih =>
    cases h' with
    | spelled hword' rest' =>
      rw [hword] at hword'
      cases hword'
      rw [ih rest']
    | kept hkept' =>
      exact absurd ⟨rfl, isOrdinal_of_ordinalWord hword, ⟨_, rfl⟩⟩ hkept'
  | kept hkept _ ih =>
    cases h' with
    | spelled hword' =>
      exact absurd ⟨rfl, isOrdinal_of_ordinalWord hword', ⟨_, rfl⟩⟩ hkept
    | kept _ rest' => rw [ih rest']

theorem fresh_of_not_startsOrdinal (h : Spelled next false cs ds) (hno : ¬ StartsOrdinal cs) :
    Spelled next true cs ds := by
  cases h with
  | nil => exact .nil
  | kept _ rest => exact .kept (fun h => hno h.2) rest

/-- Where no two ordinals stand in a row, none is passed over. -/
theorem every_of_not_two (h : Spelled false fresh cs ds) (hno : ¬ BeginsIn StartsTwo fresh cs) :
    Spelled true fresh cs ds := by
  induction h with
  | nil => exact .nil
  | @spelled d word cs ds hword rest ih =>
    have htwo := (isOrdinal_of_ordinalWord hword).hasTwoInARow_iff cs
    obtain ⟨hstart, hlater⟩ := not_or.1 (mt htwo.2 hno)
    have hrest := ih fun h => hlater (beginsIn_true_iff.2 (.inr h))
    exact .spelled hword (hrest.fresh_of_not_startsOrdinal hstart)
  | kept hkept _ ih =>
    rw [beginsIn_cons] at hno
    exact .kept hkept (ih (not_or.1 hno).2)

end Spelled

/-! ## The accessor -/

/-- Replacing letters by letters leaves the ordinals where they are. -/
theorem beginsIn_ordinal_of_replaced {first : Char} {old new ds : List Char}
    (h : Replaced (first :: old) (first :: new) cs ds) (hfirst : first ∉ ['t', 'h'])
    (hold : (first :: old).any Char.isDigit = false)
    (hnew : (first :: new).any Char.isDigit = false) :
    BeginsIn StartsOrdinal fresh ds ↔ BeginsIn StartsOrdinal fresh cs := by
  induction h generalizing fresh with
  | nil => rfl
  | found _ ih =>
    rw [beginsIn_letters isDigit_of_startsOrdinal (by simp) hnew,
      beginsIn_letters isDigit_of_startsOrdinal (by simp) hold, ih]
  | @kept c cs ds _ rest ih =>
    rw [beginsIn_cons, beginsIn_cons, ih, startsOrdinal_cons, startsOrdinal_cons,
      rest.prefix_iff hfirst]

theorem hasOrdinal_shortenCommand (cs : List Char) :
    HasOrdinal (replaceAll "command".toList "cmd".toList cs) ↔ HasOrdinal cs :=
  beginsIn_ordinal_of_replaced (replaced_replaceAll (by decide) "cmd".toList cs) (by decide)
    (by decide) (by decide)

/-- What the accessor of a label would be with every ordinal spelled out. -/
def spelledIdentifier (label : String) : String :=
  String.ofList (replaceAll "command".toList "cmd".toList (spellEvery (labelHead label.toList)))

theorem not_hasOrdinal_spelledIdentifier (label : String) :
    ¬ HasOrdinal (spelledIdentifier label).toList := by
  unfold spelledIdentifier
  rw [String.toList_ofList, hasOrdinal_shortenCommand]
  exact (spelled_spellFrom true true (labelHead label.toList)).none_left

theorem hasOrdinal_labelIdentifier_iff (label : String) :
    HasOrdinal (labelIdentifier label).toList ↔ HasTwoInARow (labelHead label.toList) := by
  unfold labelIdentifier
  rw [String.toList_ofList, hasOrdinal_shortenCommand]
  exact (spelled_spellOrdinals true (labelHead label.toList)).beginsIn_iff

theorem spellOrdinals_of_not_two {cs : List Char} (h : ¬ HasTwoInARow cs) :
    spellOrdinals true cs = spellEvery cs :=
  ((spelled_spellOrdinals true cs).every_of_not_two h).unique (spelled_spellFrom true true cs)

/-- An accessor keeps an ordinal that no digit stands before exactly when two stand in a row in its
label, humped and cut.  Where none do, every ordinal is spelled out, and nowhere else. -/
theorem the_second_of_two_ordinals_in_a_row_stays (label : String) :
    (HasOrdinal (labelIdentifier label).toList ↔ HasTwoInARow (labelHead label.toList)) ∧
      (labelIdentifier label = spelledIdentifier label ↔
        ¬ HasTwoInARow (labelHead label.toList)) ∧
      ¬ HasOrdinal (spelledIdentifier label).toList := by
  have hiff := hasOrdinal_labelIdentifier_iff label
  have hnone := not_hasOrdinal_spelledIdentifier label
  refine ⟨hiff, ⟨fun heq htwo => ?_, fun hno => ?_⟩, hnone⟩
  · rw [← heq] at hnone
    exact hnone (hiff.2 htwo)
  · unfold labelIdentifier spelledIdentifier
    rw [spellOrdinals_of_not_two hno]

/-- With a space between them two ordinals come to stand in a row, and the second is not spelled
out. -/
theorem an_ordinal_after_another_stays :
    labelIdentifier "4th 5th" = "fourth5th" ∧ HasOrdinal (labelIdentifier "4th 5th").toList ∧
      spelledIdentifier "4th 5th" = "fourthfifth" := by
  have hidentifier : labelIdentifier "4th 5th" = "fourth5th" := by decide +kernel
  refine ⟨hidentifier, ?_, by decide +kernel⟩
  rw [hidentifier]
  exact ⟨"fourth".toList, "5th".toList, rfl, ⟨.inr (.inl rfl), [], rfl⟩, rfl⟩

end MavDialect.Naming
