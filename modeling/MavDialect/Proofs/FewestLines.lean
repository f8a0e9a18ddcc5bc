-- Breaking text in which every word fits a line.  The lines are a layout of the words, and closing
-- a line sooner never saves one, so no layout has fewer.  The words of the lines are the words of
-- the text, so wrapping the lines again changes nothing.
import MavDialect.Proofs.Wrapping

namespace MavDialect.Text

variable {width : Nat} {line : List Char} {group ws lines : List (List Char)}
  {groups : List (List (List Char))}

/-! ## Layouts -/

/-- The words in order, in groups that fit a line each. -/
structure Layout (width : Nat) (ws : List (List Char)) (groups : List (List (List Char))) :
    Prop where
  flatten : groups.flatten = ws
  fits : ∀ group ∈ groups, ([' '].intercalate group).length ≤ width

/-- Where every word fits, no line is a piece of one. -/
theorem Broken.exists_layout (h : Broken width ws lines) (hfits : ∀ w ∈ ws, w.length ≤ width) :
    ∃ groups, Layout width ws groups ∧ [] ∉ groups ∧ lines = groups.map joinWords := by
  induction h with
  | nil => exact ⟨[], ⟨rfl, by simp⟩, by simp, rfl⟩
  | @line group ws lines ne_nil fits others ih =>
    obtain ⟨groups, ⟨hflatten, hgroups⟩, hnil, hlines⟩ := ih (List.forall_mem_append.1 hfits).2
    rw [joinWords_eq_intercalate] at fits
    refine ⟨group :: groups, ⟨by simp [hflatten], List.forall_mem_cons.2 ⟨fits, hgroups⟩⟩, ?_, ?_⟩
    · exact List.not_mem_cons_of_ne_of_not_mem (Ne.symm ne_nil) hnil
    · rw [hlines, List.map_cons]
  | @piece front rest ws lines full more others ih =>
    have hword := hfits _ List.mem_cons_self
    have hrest := List.length_pos_iff.2 more
    rw [List.length_append] at hword
    omega

/-! ## Comparing open lines -/

/-- Every word holds something and fits a line. -/
def Short (width : Nat) (ws : List (List Char)) : Prop := ∀ w ∈ ws, w ≠ [] ∧ w.length ≤ width

/-- An open line that is no longer leads to no more lines, and any open line to one more at most. -/
theorem length_fillLines_le (hws : Short width ws) {a b : List Char} (ha : a ≠ []) (hb : b ≠ []) :
    (a.length ≤ b.length →
      (fillLines width a ws).length ≤ (fillLines width b ws).length) ∧
    (fillLines width a ws).length ≤ (fillLines width b ws).length + 1 := by
  induction ws generalizing a b with
  | nil => simp [fillLines, closeLine_of_ne_nil ha, closeLine_of_ne_nil hb]
  | cons w rest ih =>
    obtain ⟨⟨hne, hshort⟩, hrest⟩ := List.forall_mem_cons.1 hws
    have hjoined (c : List Char) : c ++ ' ' :: w ≠ [] := by simp
    by_cases hja : a.length + 1 + w.length ≤ width <;>
      by_cases hjb : b.length + 1 + w.length ≤ width
    · obtain ⟨hle, hone⟩ := ih hrest (hjoined a) (hjoined b)
      rw [fillLines_join ha hja, fillLines_join hb hjb]
      exact ⟨fun hab => hle (by simpa using hab), hone⟩
    · -- the longer line is closed, and the shorter one takes the word
      obtain ⟨_, hone⟩ := ih hrest (hjoined a) hne
      rw [fillLines_join ha hja, fillLines_break hb hshort (by omega), List.length_cons]
      exact ⟨fun _ => hone, by omega⟩
    · -- the word opens a line, and stands after others on the line that goes on
      obtain ⟨hle, _⟩ := ih hrest hne (hjoined b)
      have hlonger := hle (by simp only [List.length_append, List.length_cons]; omega)
      rw [fillLines_break ha hshort (by omega), fillLines_join hb hjb, List.length_cons]
      exact ⟨fun hab => absurd hjb (by omega), by omega⟩
    · rw [fillLines_break ha hshort (by omega), fillLines_break hb hshort (by omega)]
      simp

/-- An open line leads to one more line at most than none. -/
theorem length_fillLines_le_open (hws : Short width ws) (line : List Char) :
    (fillLines width line ws).length ≤ (fillLines width [] ws).length + 1 := by
  by_cases hline : line = []
  · subst hline
    omega
  cases ws with
  | nil => simp [fillLines, closeLine_of_ne_nil hline]
  | cons w rest =>
    obtain ⟨⟨hne, hshort⟩, hrest⟩ := List.forall_mem_cons.1 hws
    rw [fillLines_open hshort]
    by_cases hjoin : line.length + 1 + w.length ≤ width
    · rw [fillLines_join hline hjoin]
      exact (length_fillLines_le hrest (by simp) hne).2
    · rw [fillLines_break hline hshort (by omega), List.length_cons]

/-! ## Groups that fit -/

/-- Words that fit behind an open line join it. -/
theorem fillLines_append (hline : line ≠ [])
    (hfits : (line ++ group.flatMap (' ' :: ·)).length ≤ width) :
    fillLines width line (group ++ ws) =
      fillLines width (line ++ group.flatMap (' ' :: ·)) ws := by
  induction group generalizing line with
  | nil => simp
  | cons w rest ih =>
    rw [List.flatMap_cons, ← List.append_assoc] at hfits ⊢
    have hjoin : line.length + 1 + w.length ≤ width := by
      simp only [List.length_append, List.length_cons] at hfits
      omega
    rw [List.cons_append, fillLines_join hline hjoin, ih (by simp) hfits]

/-- A group that fits is one line. -/
theorem fillLines_group (hgroup : ∀ w ∈ group, w ≠ []) (hfits : (joinWords group).length ≤ width) :
    fillLines width [] (group ++ ws) = fillLines width (joinWords group) ws := by
  cases group with
  | nil => rfl
  | cons w rest =>
    rw [joinWords_cons] at hfits ⊢
    have hshort : w.length ≤ width := by
      rw [List.length_append] at hfits
      omega
    rw [List.cons_append, fillLines_open hshort,
      fillLines_append (hgroup w List.mem_cons_self) hfits]

/-- No layout has fewer lines. -/
theorem Layout.fewest_lines (h : Layout width ws groups) (hws : Short width ws) :
    (fillLines width [] ws).length ≤ groups.length := by
  obtain ⟨rfl, hfits⟩ := h
  induction groups with
  | nil => exact Nat.le_refl 0
  | cons group groups ih =>
    rw [List.flatten_cons] at hws ⊢
    obtain ⟨hgroup, hothers⟩ := List.forall_mem_append.1 hws
    obtain ⟨hfit, hfits⟩ := List.forall_mem_cons.1 hfits
    rw [← joinWords_eq_intercalate] at hfit
    calc (fillLines width [] (group ++ groups.flatten)).length
        = (fillLines width (joinWords group) groups.flatten).length := by
          rw [fillLines_group (fun w hw => (hgroup w hw).1) hfit]
      _ ≤ (fillLines width [] groups.flatten).length + 1 :=
          length_fillLines_le_open hothers (joinWords group)
      _ ≤ groups.length + 1 := Nat.succ_le_succ (ih hfits hothers)

/-! ## Wrapping again -/

theorem words_joinWords (h : ∀ w ∈ ws, IsWord w) : words (joinWords ws) = ws := by
  induction ws with
  | nil => rfl
  | cons w rest ih =>
    obtain ⟨⟨hne, hclean⟩, hrest⟩ := List.forall_mem_cons.1 h
    have hword := words_of_clean hne hclean
    cases rest with
    | nil => exact hword
    | cons next rest =>
      rw [joinWords_cons_cons, words_append_cons (by decide), hword, ih hrest]
      rfl

/-- The lines one after another, with some white space between each and the next. -/
inductive Strung : List (List Char) → List Char → Prop
  | none : Strung [] []
  | one (line : List Char) : Strung [line] line
  | more {next gap text : List Char} {lines : List (List Char)} (line : List Char)
      (white : White gap) (ne_nil : gap ≠ []) (others : Strung (next :: lines) text) :
      Strung (line :: next :: lines) (line ++ (gap ++ text))

theorem Strung.words_eq {text : List Char} (h : Strung lines text) :
    words text = lines.flatMap words := by
  induction h with
  | none => rfl
  | one line => rw [List.flatMap_singleton]
  | more line white ne_nil others ih =>
    rw [words_append_white_append white ne_nil, ih, ← List.flatMap_cons]

theorem strung_intercalate {gap : List Char} (hgap : White gap) (hne : gap ≠ [])
    (lines : List (List Char)) : Strung lines (gap.intercalate lines) := by
  induction lines with
  | nil => exact .none
  | cons line rest ih =>
    cases rest with
    | nil =>
      rw [List.intercalate_singleton]
      exact .one line
    | cons next rest =>
      rw [List.intercalate_cons_cons, List.append_assoc]
      exact .more line hgap hne ih

/-- The lines hold the words of the text. -/
theorem Layout.flatMap_words (h : Layout width ws groups) (hws : ∀ w ∈ ws, IsWord w) :
    (groups.map joinWords).flatMap words = ws := by
  obtain ⟨rfl, -⟩ := h
  rw [List.flatMap_map, ← List.flatMap_id]
  refine List.flatMap_congr fun group hgroup => ?_
  exact words_joinWords fun w hw => hws w (List.mem_flatten_of_mem hgroup hw)

/-- The lines of a text are those of every text that strings them together. -/
theorem wrapChars_of_strung {cs text : List Char} (hgroups : Layout width (words cs) groups)
    (hlines : wrapChars width cs = groups.map joinWords)
    (h : Strung (wrapChars width cs) text) : wrapChars width text = wrapChars width cs := by
  have hwords : words text = words cs := by
    rw [h.words_eq, hlines, hgroups.flatMap_words fun w => words_clean]
  rw [wrapChars, wrapChars, hwords]

/-! ## Wrapped text -/

/-- Where no word is longer than the width, the lines are a layout of the words, each of one word or
more, and no layout has fewer lines.  A text that strings the lines together with white space, such
as a blank or a line end, has the same lines. -/
theorem wrapping_takes_the_fewest_lines {lines : List String} (width : Nat) (text : Option String)
    (hws : ((text.getD "").toList.splitOnP isWhite).filter (!·.isEmpty) = ws)
    (hlines : wrap width text = lines) (hwidth : 0 < width) (hfits : ∀ w ∈ ws, w.length ≤ width) :
    (∃ groups, Layout width ws groups ∧ [] ∉ groups ∧
      lines.map String.toList = groups.map [' '].intercalate) ∧
    (∀ groups, Layout width ws groups → lines.length ≤ groups.length) ∧
    (∀ again : String, Strung (lines.map String.toList) again.toList →
      wrap width (some again) = lines) ∧
    wrap width (some (" ".intercalate lines)) = lines ∧
    wrap width (some ("\n".intercalate lines)) = lines := by
  rw [← words_eq_filter_splitOnP] at hws
  subst hws hlines
  have hshort : Short width (words (text.getD "").toList) :=
    fun w hw => ⟨(words_clean hw).1, hfits w hw⟩
  obtain ⟨groups, hlayout, hnil, hgroups⟩ :=
    (broken_wrapChars hwidth (text.getD "").toList).exists_layout hfits
  have hagain (again : String)
      (hstrung : Strung ((wrap width text).map String.toList) again.toList) :
      wrap width (some again) = wrap width text := by
    rw [toList_wrap] at hstrung
    exact congrArg (List.map String.ofList) (wrapChars_of_strung hlayout hgroups hstrung)
  refine ⟨⟨groups, hlayout, hnil, ?_⟩, fun others hothers => ?_, hagain, hagain _ ?_, hagain _ ?_⟩
  · rw [toList_wrap, hgroups]
    exact List.map_congr_left fun group _ => joinWords_eq_intercalate group
  · calc (wrap width text).length = (wrapChars width (text.getD "").toList).length := by
          rw [← toList_wrap, List.length_map]
      _ = (fillLines width [] (words (text.getD "").toList)).length := by
          rw [wrapChars, if_neg (by omega)]
      _ ≤ others.length := hothers.fewest_lines hshort
  · rw [String.toList_intercalate]
    exact strung_intercalate (by decide) (by decide) _
  · rw [String.toList_intercalate]
    exact strung_intercalate (by decide) (by decide) _

/-- A word fills its line to the last character, and no layout does with one line. -/
theorem a_line_is_filled_to_its_last_character :
    let ws := ["alpha".toList, "beta".toList, "gamma".toList, "delta".toList]
    let lines := ["alpha beta", "gamma delta"]
    (∀ w ∈ ws, w.length ≤ 11) ∧ wrap 11 (some " alpha\tbeta gamma\n\ndelta") = lines ∧
      (∀ groups, Layout 11 ws groups → 2 ≤ groups.length) ∧
      wrap 11 (some "alpha beta\n gamma delta") = lines := by
  intro ws lines
  have hwrap : wrap 11 (some " alpha\tbeta gamma\n\ndelta") = lines := by decide +kernel
  have hfits : ∀ w ∈ ws, w.length ≤ 11 := by decide
  obtain ⟨_, hfewest, hagain, _⟩ :=
    wrapping_takes_the_fewest_lines 11 (some " alpha\tbeta gamma\n\ndelta") (by decide +kernel)
      hwrap (by decide) hfits
  have hgap : White ['\n', ' '] := by decide
  have hstrung := Strung.more "alpha beta".toList hgap (by decide) (.one "gamma delta".toList)
  exact ⟨hfits, hwrap, hfewest, hagain "alpha beta\n gamma delta" hstrung⟩

end MavDialect.Text
