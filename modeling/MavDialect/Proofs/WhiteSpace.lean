-- White space at the ends of a text and between its words.  Cutting it off leaves the part of the
-- text that begins and ends in something else, and the words are what is left between the white
-- space when the empty pieces are dropped.
import MavDialect.Text.White
import Mathlib.Data.List.Induction
import Mathlib.Data.List.TakeWhile

namespace MavDialect.Text

variable {cs ds body : List Char} {c : Char}

/-- Nothing but white space. -/
def White (cs : List Char) : Prop := ∀ c ∈ cs, isWhite c = true

instance (cs : List Char) : Decidable (White cs) := List.decidableBAll _ cs

theorem white_nil : White [] := by simp [White]

/-! ## Both ends -/

/-- No white space at either end. -/
def Bare (cs : List Char) : Prop :=
  (∀ c, cs.head? = some c → isWhite c = false) ∧ ∀ c, cs.getLast? = some c → isWhite c = false

theorem bare_of_clean (h : ∀ c ∈ cs, isWhite c = false) : Bare cs :=
  ⟨fun c hc => h c (List.mem_of_head? hc), fun c hc => h c (List.mem_of_getLast? hc)⟩

theorem trimEnd_concat (cs : List Char) (c : Char) :
    trimEnd (cs ++ [c]) = if isWhite c then trimEnd cs else cs ++ [c] := by
  induction cs with
  | nil => rfl
  | cons d cs ih =>
    rw [List.cons_append]
    unfold trimEnd
    rw [ih]
    by_cases hc : isWhite c
    · simp [hc]
    · simp only [hc]
      cases cs <;> rfl

theorem trimEnd_append_white (cs : List Char) (h : White ds) : trimEnd (cs ++ ds) = trimEnd cs := by
  induction ds using List.reverseRecOn with
  | nil => simp
  | append_singleton ds c ih =>
    have hc := h c (by simp)
    rw [← List.append_assoc, trimEnd_concat, if_pos hc, ih fun d hd => h d (by simp [hd])]

theorem trimEnd_of_getLast? (h : ∀ c, cs.getLast? = some c → isWhite c = false) :
    trimEnd cs = cs := by
  induction cs using List.reverseRecOn with
  | nil => rfl
  | append_singleton cs c =>
    have hc := h c (by simp)
    rw [trimEnd_concat, if_neg (by simp [hc])]

/-- What is cut off at the end is white space, and it is all of it. -/
theorem exists_trimEnd (cs : List Char) :
    (∃ after, White after ∧ cs = trimEnd cs ++ after) ∧
      ∀ c, (trimEnd cs).getLast? = some c → isWhite c = false := by
  induction cs using List.reverseRecOn with
  | nil => exact ⟨⟨[], white_nil, rfl⟩, by simp [trimEnd]⟩
  | append_singleton cs c ih =>
    obtain ⟨⟨after, hafter, hcs⟩, hlast⟩ := ih
    rw [trimEnd_concat]
    by_cases hc : isWhite c
    · rw [if_pos hc]
      refine ⟨⟨after ++ [c], ?_, ?_⟩, hlast⟩
      · intro d hd
        rcases List.mem_append.1 hd with hd | hd
        · exact hafter d hd
        · rw [List.mem_singleton.1 hd]
          exact hc
      · rw [← List.append_assoc, ← hcs]
    · rw [if_neg hc]
      exact ⟨⟨[], white_nil, by simp⟩, by simpa using hc⟩

/-- What is left is the one part of the text that has white space before it and after it, and none
at its own ends. -/
theorem trimChars_eq_iff :
    trimChars cs = body ↔ Bare body ∧
      ∃ before after, White before ∧ White after ∧ cs = before ++ body ++ after := by
  constructor
  · rintro rfl
    obtain ⟨⟨after, hafter, hcs⟩, hlast⟩ := exists_trimEnd (cs.dropWhile isWhite)
    refine ⟨⟨fun c hc => ?_, hlast⟩, cs.takeWhile isWhite, after,
      fun c hc => List.mem_takeWhile_imp hc, ?_⟩
    · -- the first character that is left is the first one that is not white
      have hhead : (cs.dropWhile isWhite).head? = some c := by
        rw [hcs, List.head?_append, ← trimChars, hc]
        rfl
      have hfirst := List.head?_dropWhile_not isWhite cs
      rw [hhead] at hfirst
      exact hfirst
    · refine ⟨hafter, ?_⟩
      rw [List.append_assoc, trimChars, ← hcs, List.takeWhile_append_dropWhile]
  · rintro ⟨hbare, before, after, hbefore, hafter, rfl⟩
    unfold trimChars
    rw [List.append_assoc, List.dropWhile_append_of_pos hbefore]
    cases body with
    | nil =>
      have hdrop : after.dropWhile isWhite = [] := List.dropWhile_eq_nil_iff.2 hafter
      rw [List.nil_append, hdrop]
      rfl
    | cons c body =>
      have hc := hbare.1 c rfl
      rw [List.cons_append, List.dropWhile_cons_of_neg (by simp [hc]), ← List.cons_append,
        trimEnd_append_white _ hafter, trimEnd_of_getLast? hbare.2]

/-! ## Words -/

theorem exists_splitOnP_isWhite (cs : List Char) :
    ∃ others, cs.splitOnP isWhite = (splitWord cs).1 :: others ∧
      others.filter (!·.isEmpty) = (splitWord cs).2 := by
  induction cs with
  | nil => exact ⟨[], rfl, rfl⟩
  | cons c cs ih =>
    obtain ⟨others, hsplit, hothers⟩ := ih
    rw [List.splitOnP_cons_eq_if_modifyHead, hsplit]
    by_cases hc : isWhite c
    · refine ⟨(splitWord cs).1 :: others, by simp [splitWord, hc], ?_⟩
      rw [List.filter_cons, hothers]
      cases hword : (splitWord cs).1 <;> simp [splitWord, hc, hword]
    · exact ⟨others, by simp [splitWord, hc], by simp [splitWord, hc, hothers]⟩

/-- The words are the pieces between the white space that are not empty. -/
theorem words_eq_filter_splitOnP (cs : List Char) :
    words cs = (cs.splitOnP isWhite).filter (!·.isEmpty) := by
  obtain ⟨others, hsplit, hothers⟩ := exists_splitOnP_isWhite cs
  rw [hsplit, List.filter_cons, hothers]
  unfold words
  dsimp only
  cases (splitWord cs).1 <;> rfl

/-- White space parts the words before it from those after it. -/
theorem words_append_cons (hc : isWhite c = true) (cs ds : List Char) :
    words (cs ++ c :: ds) = words cs ++ words ds := by
  simp only [words_eq_filter_splitOnP, List.splitOnP_append_cons cs ds hc, List.filter_append]

/-- White space in front of a text belongs to no word. -/
theorem words_white_append (h : White cs) (ds : List Char) : words (cs ++ ds) = words ds := by
  induction cs with
  | nil => rfl
  | cons c cs ih =>
    have hc := h c List.mem_cons_self
    have hfront := words_append_cons hc [] (cs ++ ds)
    rw [List.cons_append]
    rw [List.nil_append] at hfront
    rw [hfront, ih fun d hd => h d (List.mem_cons_of_mem _ hd)]
    rfl

/-- White space between two texts keeps their words apart. -/
theorem words_append_white_append {between : List Char} (h : White between) (hne : between ≠ [])
    (cs ds : List Char) : words (cs ++ (between ++ ds)) = words cs ++ words ds := by
  cases between with
  | nil => exact absurd rfl hne
  | cons c rest =>
    have hc := h c List.mem_cons_self
    rw [List.cons_append, words_append_cons hc,
      words_white_append fun d hd => h d (List.mem_cons_of_mem _ hd)]

/-- A text without white space is one word. -/
theorem words_of_clean (hne : cs ≠ []) (h : ∀ c ∈ cs, isWhite c = false) : words cs = [cs] := by
  rw [words_eq_filter_splitOnP, List.splitOnP_eq_singleton h]
  simp [hne]

end MavDialect.Text
