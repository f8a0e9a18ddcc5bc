-- Names that are joined by a separator.  Humps and classes are made of the parts one by one: what
-- is on one side of the separator does not show on the other, neither in the humps, where a
-- separator may itself be taken for the start of a word, nor in lower case, where a sigma looks
-- around.
import MavDialect.Naming.Identifier
import MavDialect.Proofs.SigmaContext

namespace MavDialect

namespace Text

variable {c : Char} {cs ds : List Char}

theorem upper_ne_nil (c : Char) : upper c ≠ [] := by
  rcases caseImage_upper c with hkept | ⟨_, hne, _⟩
  · simp [hkept]
  · exact hne

theorem upperFirst_append (h : cs ≠ []) (ds : List Char) :
    upperFirst (cs ++ ds) = upperFirst cs ++ ds := by
  cases cs with
  | nil => exact absurd rfl h
  | cons c cs => simp [upperFirst]

/-! ## Words -/

theorem splitMapped_append (f : List Char → List Char) (hc : isWhite c = true) (cs ds : List Char) :
    splitMapped f (cs ++ c :: ds) =
      ((splitMapped f cs).1, (splitMapped f cs).2 ++ c :: mapWords f ds) := by
  induction cs with
  | nil => simp [splitMapped, mapWords, hc]
  | cons d cs ih =>
    rw [List.cons_append, splitMapped, ih, splitMapped]
    by_cases hd : isWhite d <;> simp [hd]

theorem mapWords_eq (f : List Char → List Char) (cs : List Char) :
    mapWords f cs = f (splitMapped f cs).1 ++ (splitMapped f cs).2 := rfl

/-- White space stays, and the words on its two sides are changed for themselves. -/
theorem mapWords_append (f : List Char → List Char) (hc : isWhite c = true) (cs ds : List Char) :
    mapWords f (cs ++ c :: ds) = mapWords f cs ++ c :: mapWords f ds := by
  rw [mapWords_eq, splitMapped_append f hc, mapWords_eq f cs, List.append_assoc]

end Text

open Text

namespace Naming

variable {c s : Char} {cs a b : List Char}

/-! ## Humps -/

/-- A word character other than the underscore. -/
def StartsWord (c : Char) : Prop := isWord c = true ∧ c ≠ '_'

instance (c : Char) : Decidable (StartsWord c) := inferInstanceAs (Decidable (_ ∧ _))

theorem StartsWord.not_isSeparator (h : StartsWord c) : isSeparator c = false := by
  have hhyphen : c ≠ '-' := by
    rintro rfl
    exact absurd h.1 (by decide +kernel)
  simp [isSeparator, hhyphen, h.2]

theorem humpSeparators_cons (hc : isSeparator c = false) (cs : List Char) :
    humpSeparators (c :: cs) = c :: humpSeparators cs := by
  cases cs with
  | nil => rfl
  | cons d cs => simp [humpSeparators, hc]

theorem humpSeparators_hump (hs : isSeparator s = true) (hc : isWord c = true) (cs : List Char) :
    humpSeparators (s :: c :: cs) = upper c ++ humpSeparators cs := by
  simp [humpSeparators, hs, hc]

theorem humpSeparators_eq_nil_iff : humpSeparators cs = [] ↔ cs = [] := by
  fun_cases humpSeparators cs <;> simp [upper_ne_nil]

/-- A separator in front of a word makes it start in upper case. -/
theorem humpSeparators_word (hs : isSeparator s = true) (hb : ∃ c ∈ b.head?, StartsWord c) :
    humpSeparators (s :: b) = upperFirst (humpSeparators b) := by
  obtain ⟨c, hhead, hc⟩ := hb
  obtain ⟨rest, rfl⟩ := List.head?_eq_some_iff.1 hhead
  rw [humpSeparators_hump hs hc.1, humpSeparators_cons hc.not_isSeparator]
  rfl

/-- Neither part has a separator at the seam, so none is taken for a word character there. -/
theorem humpSeparators_append (ha : ∀ c ∈ a.getLast?, isSeparator c = false)
    (hs : isSeparator s = true) (hb : ∃ c ∈ b.head?, StartsWord c) :
    humpSeparators (a ++ s :: b) = humpSeparators a ++ upperFirst (humpSeparators b) := by
  fun_induction humpSeparators a with
  | case1 => exact humpSeparators_word hs hb
  | case2 c =>
    have hc : isSeparator c = false := ha c rfl
    rw [List.singleton_append, humpSeparators_cons hc, humpSeparators_word hs hb]
    rfl
  | case3 t c cs hhump ih =>
    rw [Bool.and_eq_true] at hhump
    have hrest : ∀ d ∈ cs.getLast?, isSeparator d = false := by
      intro d hd
      refine ha d ?_
      rw [List.getLast?_cons, List.getLast?_cons, Option.mem_def.1 hd]
      rfl
    rw [List.cons_append, List.cons_append, humpSeparators_hump hhump.1 hhump.2, ih hrest,
      List.append_assoc]
  | case4 t c cs hkept ih =>
    have hrest : ∀ d ∈ (c :: cs).getLast?, isSeparator d = false := by
      intro d hd
      refine ha d ?_
      rw [List.getLast?_cons, Option.mem_def.1 hd]
      rfl
    rw [List.cons_append, List.cons_append, humpSeparators, if_neg hkept, ← List.cons_append,
      ih hrest, List.cons_append]

/-! ## Lower case -/

theorem isSeparator_iff : isSeparator c = true ↔ c = '-' ∨ c = '_' := by
  simp [isSeparator]

theorem separates_of_isSeparator (h : isSeparator s = true) : Separates s := by
  rcases isSeparator_iff.1 h with rfl | rfl <;>
    exact ⟨by decide +kernel, by decide +kernel, by decide +kernel⟩

/-- Lower-casing makes no separator. -/
theorem eq_of_mem_lowerBetween {before after : List Char} (hs : isSeparator s = true)
    (h : s ∈ lowerBetween before after c) : c = s := by
  rcases mem_lowerBetween h with hlower | rfl | rfl
  · rcases isSeparator_iff.1 hs with rfl | rfl
    · exact eq_of_mem_mapCase (by decide) (by decide +kernel) hlower
    · exact eq_of_mem_mapCase (by decide) (by decide +kernel) hlower
  · exact absurd hs (by decide)
  · exact absurd hs (by decide)

theorem getLast?_of_lowerAfter {before : List Char} (hs : isSeparator s = true)
    (h : (lowerAfter before cs).getLast? = some s) : cs.getLast? = some s := by
  induction cs generalizing before with
  | nil => simp [lowerAfter] at h
  | cons c cs ih =>
    rw [lowerAfter_cons] at h
    by_cases hcs : cs = []
    · subst hcs
      rw [lowerAfter, List.append_nil] at h
      rw [eq_of_mem_lowerBetween hs (List.mem_of_getLast? h)]
      rfl
    · have hne : lowerAfter (c :: before) cs ≠ [] := mt (recased_lowerAfter _ _).eq_nil_iff.1 hcs
      rw [List.getLast?_append_of_ne_nil _ hne] at h
      rw [List.getLast?_cons, ih h]
      rfl

/-- A name that does not end in a separator does not end in one in lower case either. -/
theorem not_isSeparator_of_getLast?_lowerAll (ha : ∀ c ∈ a.getLast?, isSeparator c = false) :
    ∀ c ∈ (lowerAll a).getLast?, isSeparator c = false := by
  intro c hc
  rw [← Bool.not_eq_true]
  intro hs
  have hend := ha c (getLast?_of_lowerAfter hs hc)
  rw [hs] at hend
  cases hend

/-! ## Classes of commands -/

/-- The class of a command without the word at its end. -/
def commandStem (name : List Char) : List Char :=
  (mapWords titleWord (name.map fun c => if c = '_' then ' ' else c)).filter (· ≠ ' ')

theorem commandClassName_eq (name : String) :
    commandClassName name = String.ofList (commandStem name.toList) ++ "Command" := by
  show String.ofList (commandStem name.toList ++ "Command".toList) = _
  rw [String.ofList_append, String.ofList_toList]

theorem commandStem_append (a b : List Char) :
    commandStem (a ++ '_' :: b) = commandStem a ++ commandStem b := by
  unfold commandStem
  rw [List.map_append, List.map_cons, if_pos rfl, mapWords_append titleWord (by decide),
    List.filter_append, List.filter_cons_of_neg (by decide)]

/-! ## The law -/

theorem toList_join (a : String) (s : Char) (b : String) :
    (a ++ String.singleton s ++ b).toList = a.toList ++ s :: b.toList := by
  simp

/-- The class of a command is made of what lies between underscores, part by part.  Humps are made
so where the first part does not end in a separator and the second starts a word, and so are the
classes of enums and messages where the second part also starts a word in lower case and the first
is not empty. -/
theorem joined_names_are_changed_part_by_part (a b : String) :
    (∃ x y, commandClassName a = x ++ "Command" ∧ commandClassName b = y ++ "Command" ∧
      commandClassName (a ++ "_" ++ b) = x ++ y ++ "Command") ∧
    ∀ s, isSeparator s = true → (∀ c ∈ a.toList.getLast?, isSeparator c = false) →
      (∃ c ∈ b.toList.head?, StartsWord c) →
      camel (a ++ String.singleton s ++ b) =
        camel a ++ String.ofList (upperFirst (camel b).toList) ∧
      (a ≠ "" → (∃ c ∈ (lowerAll b.toList).head?, StartsWord c) →
        className (a ++ String.singleton s ++ b) = className a ++ className b) := by
  refine ⟨⟨_, _, commandClassName_eq a, commandClassName_eq b, ?_⟩, fun s hs ha hb => ⟨?_, ?_⟩⟩
  · have hjoin : (a ++ "_" ++ b).toList = a.toList ++ '_' :: b.toList := by simp
    rw [commandClassName_eq, hjoin, commandStem_append, String.ofList_append]
  · unfold camel
    rw [toList_join, humpSeparators_append ha hs hb, String.toList_ofList, String.ofList_append]
  · intro hne hlower
    have hfirst : humpSeparators (lowerAll a.toList) ≠ [] := by
      rw [Ne, humpSeparators_eq_nil_iff, (recased_lowerAll a.toList).eq_nil_iff]
      exact fun h => hne (String.toList_eq_nil_iff.1 h)
    unfold className
    rw [toList_join, (separates_of_isSeparator hs).lowerAll_append,
      humpSeparators_append (not_isSeparator_of_getLast?_lowerAll ha) hs hlower,
      upperFirst_append hfirst, String.ofList_append]

/-- In the first part an underscore is taken for the start of a word, and a sigma ends the word; the
second part starts with a letter that has two in upper case. -/
theorem an_underscore_and_a_sigma_stand_before_the_seam :
    let a := "PATH__ΟΔΟΣ"
    let b := "ßeta_σΣ"
    (isSeparator '-' = true ∧ (∀ c ∈ a.toList.getLast?, isSeparator c = false) ∧
      (∃ c ∈ b.toList.head?, StartsWord c) ∧ a ≠ "" ∧
      ∃ c ∈ (lowerAll b.toList).head?, StartsWord c) ∧
    camel (a ++ "-" ++ b) = "PATH_ΟΔΟΣSSetaΣΣ" ∧
      className (a ++ "-" ++ b) = "Path_οδοςSSetaΣς" ∧
      ∃ x y, commandClassName a = x ++ "Command" ∧ commandClassName b = y ++ "Command" ∧
        commandClassName (a ++ "_" ++ b) = x ++ y ++ "Command" := by
  intro a b
  have hends : ∀ c ∈ a.toList.getLast?, isSeparator c = false := by
    have hlast : a.toList.getLast? = some 'Σ' := by decide +kernel
    rw [hlast]
    rintro _ ⟨⟩
    rfl
  have hstarts : ∃ c ∈ b.toList.head?, StartsWord c := ⟨'ß', by decide +kernel, by decide +kernel⟩
  have hlower : ∃ c ∈ (lowerAll b.toList).head?, StartsWord c :=
    ⟨'ß', by decide +kernel, by decide +kernel⟩
  obtain ⟨hcommand, hseam⟩ := joined_names_are_changed_part_by_part a b
  obtain ⟨hcamel, hclass⟩ := hseam '-' rfl hends hstarts
  exact ⟨⟨rfl, hends, hstarts, by decide, hlower⟩, hcamel.trans (by decide +kernel),
    (hclass (by decide) hlower).trans (by decide +kernel), hcommand⟩

end Naming

end MavDialect
