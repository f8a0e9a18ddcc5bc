-- Breaking text into lines.  Every line takes some of the words, or a piece of a word that fits no
-- line, so putting the lines together again gives the words back, and a line that is longer than
-- the width is a piece and its hyphen.
import MavDialect.Proofs.WhiteSpace
import MavDialect.Text.Wrap
import Mathlib.Data.List.Chain

namespace MavDialect.Text

variable {width : Nat} {line word : List Char} {group ws lines : List (List Char)}

/-! ## Joined words -/

theorem joinWords_cons_cons (w next : List Char) (rest : List (List Char)) :
    joinWords (w :: next :: rest) = w ++ ' ' :: joinWords (next :: rest) := rfl

theorem joinWords_eq_intercalate (ws : List (List Char)) : joinWords ws = [' '].intercalate ws := by
  induction ws with
  | nil => rfl
  | cons w rest ih =>
    cases rest with
    | nil => simp [joinWords]
    | cons next rest =>
      rw [joinWords_cons_cons, ih, List.intercalate_cons_cons, List.append_assoc]
      rfl

theorem joinWords_cons (w : List Char) (rest : List (List Char)) :
    joinWords (w :: rest) = w ++ rest.flatMap (' ' :: ·) := by
  induction rest generalizing w with
  | nil => simp [joinWords]
  | cons next rest ih => rw [joinWords_cons_cons, ih, List.flatMap_cons, List.cons_append]

theorem joinWords_append (hgroup : group ≠ []) (hws : ws ≠ []) :
    joinWords (group ++ ws) = joinWords group ++ ' ' :: joinWords ws := by
  obtain ⟨w, rest, rfl⟩ := List.exists_cons_of_ne_nil hgroup
  obtain ⟨next, others, rfl⟩ := List.exists_cons_of_ne_nil hws
  simp [joinWords_cons]

theorem joinWords_ne_nil (hgroup : group ≠ []) (h : ∀ w ∈ group, w ≠ []) :
    joinWords group ≠ [] := by
  obtain ⟨w, rest, rfl⟩ := List.exists_cons_of_ne_nil hgroup
  rw [joinWords_cons]
  exact List.append_ne_nil_of_left_ne_nil (h w List.mem_cons_self) _

/-! ## One line -/

/-- A word: it holds something, and no white space. -/
def IsWord (word : List Char) : Prop := word ≠ [] ∧ ∀ c ∈ word, isWhite c = false

/-- The line holds something, and its white space is single blanks between other characters. -/
structure Tidy (line : List Char) : Prop where
  ne_nil : line ≠ []
  blank : ∀ c ∈ line, isWhite c = true → c = ' '
  bare : Bare line
  single : line.IsChain fun a b => a = ' ' → b ≠ ' '

theorem IsWord.tidy (h : IsWord word) : Tidy word := by
  obtain ⟨hne, hclean⟩ := h
  refine ⟨hne, fun c hc hwhite => ?_, bare_of_clean hclean, ?_⟩
  · rw [hclean c hc] at hwhite
    cases hwhite
  · apply List.Pairwise.isChain
    rw [List.pairwise_iff_forall_sublist]
    rintro a b hsub rfl
    have ha := hclean ' ' (hsub.subset List.mem_cons_self)
    exact absurd ha (by decide)

/-- A blank joins two lines to one. -/
theorem Tidy.join {a b : List Char} (ha : Tidy a) (hb : Tidy b) : Tidy (a ++ ' ' :: b) := by
  have hblank : isWhite ' ' = true := by decide
  refine ⟨by simp, fun c hc hwhite => ?_, ⟨fun c hc => ?_, fun c hc => ?_⟩, ?_⟩
  · rcases List.mem_append.1 hc with hc | hc
    · exact ha.blank c hc hwhite
    · rcases List.mem_cons.1 hc with rfl | hc
      · rfl
      · exact hb.blank c hc hwhite
  · rw [List.head?_append_of_ne_nil _ ha.ne_nil] at hc
    exact ha.bare.1 c hc
  · rw [← List.concat_append, List.getLast?_append_of_ne_nil _ hb.ne_nil] at hc
    exact hb.bare.2 c hc
  · rw [List.isChain_append, List.isChain_cons]
    refine ⟨ha.single, ⟨fun c hc _ => ?_, hb.single⟩, fun c hc d hd => ?_⟩
    · rintro rfl
      have hnot := hb.bare.1 ' ' hc
      rw [hblank] at hnot
      cases hnot
    · rintro rfl
      have hnot := ha.bare.2 ' ' hc
      rw [hblank] at hnot
      cases hnot

theorem tidy_joinWords (hne : group ≠ []) (h : ∀ w ∈ group, IsWord w) : Tidy (joinWords group) := by
  induction group with
  | nil => exact absurd rfl hne
  | cons w rest ih =>
    obtain ⟨hw, hrest⟩ := List.forall_mem_cons.1 h
    cases rest with
    | nil => exact hw.tidy
    | cons next rest =>
      rw [joinWords_cons_cons]
      exact hw.tidy.join (ih (by simp) hrest)

/-! ## Broken text -/

/-- The lines hold the words in order.  A line takes some words, which fit it, or a piece of a word
with a hyphen, and the rest of that word comes after it. -/
inductive Broken (width : Nat) : List (List Char) → List (List Char) → Prop
  | nil : Broken width [] []
  | line {group ws lines : List (List Char)} (ne_nil : group ≠ [])
      (fits : (joinWords group).length ≤ width) (others : Broken width ws lines) :
      Broken width (group ++ ws) (joinWords group :: lines)
  | piece {front rest : List Char} {ws lines : List (List Char)} (full : front.length = width)
      (more : rest ≠ []) (others : Broken width (rest :: ws) lines) :
      Broken width ((front ++ rest) :: ws) ((front ++ ['-']) :: lines)

theorem Broken.eq_nil_iff (h : Broken width ws lines) : lines = [] ↔ ws = [] := by
  cases h with
  | nil => simp
  | line ne_nil => simp [ne_nil]
  | piece => simp

/-- The line is a piece of a word and a hyphen, one more than the width. -/
def IsPiece (width : Nat) (ws : List (List Char)) (line : List Char) : Prop :=
  ∃ word ∈ ws, ∃ part, part <:+: word ∧ part.length = width ∧ line = part ++ ['-']

/-- Each line fits or is a piece. -/
theorem Broken.fits_or_piece (h : Broken width ws lines) (hline : line ∈ lines) :
    line.length ≤ width ∨ IsPiece width ws line := by
  induction h with
  | nil => cases hline
  | line ne_nil fits others ih =>
    rcases List.mem_cons.1 hline with rfl | hline
    · exact .inl fits
    · rcases ih hline with hfits | ⟨word, hword, hpart⟩
      · exact .inl hfits
      · exact .inr ⟨word, List.mem_append_right _ hword, hpart⟩
  | @piece front rest ws lines full more others ih =>
    rcases List.mem_cons.1 hline with rfl | hline
    · exact .inr ⟨_, List.mem_cons_self, front, (List.prefix_append front rest).isInfix, full, rfl⟩
    · rcases ih hline with hfits | ⟨word, hword, part, hpart, hrest⟩
      · exact .inl hfits
      · right
        rcases List.mem_cons.1 hword with rfl | hword
        · exact ⟨_, List.mem_cons_self, part,
            hpart.trans (List.suffix_append front word).isInfix, hrest⟩
        · exact ⟨word, List.mem_cons_of_mem _ hword, part, hpart, hrest⟩

/-- The rest of a word follows each piece, so the last line is none. -/
theorem Broken.last_fits (h : Broken width ws lines) (hlast : lines.getLast? = some line) :
    line.length ≤ width := by
  induction h with
  | nil => cases hlast
  | @line group ws lines ne_nil fits others ih =>
    cases lines with
    | nil =>
      cases hlast
      exact fits
    | cons next rest => exact ih hlast
  | @piece front rest ws lines full more others ih =>
    cases lines with
    | nil => cases others.eq_nil_iff.1 rfl
    | cons next rest => exact ih hlast

theorem Broken.tidy (h : Broken width ws lines) (hws : ∀ w ∈ ws, IsWord w) (hline : line ∈ lines) :
    Tidy line := by
  induction h with
  | nil => cases hline
  | line ne_nil fits others ih =>
    rw [List.forall_mem_append] at hws
    rcases List.mem_cons.1 hline with rfl | hline
    · exact tidy_joinWords ne_nil hws.1
    · exact ih hws.2 hline
  | @piece front rest ws lines full more others ih =>
    obtain ⟨hword, hws⟩ := List.forall_mem_cons.1 hws
    have hclean := List.forall_mem_append.1 hword.2
    rcases List.mem_cons.1 hline with rfl | hline
    · apply IsWord.tidy
      refine ⟨by simp, List.forall_mem_append.2 ⟨hclean.1, List.forall_mem_singleton.2 ?_⟩⟩
      decide
    · exact ih (List.forall_mem_cons.2 ⟨⟨more, hclean.2⟩, hws⟩) hline

/-- Puts lines together again.  A line that is longer than the width goes on in the next one,
without its hyphen, and any other two are joined by a blank. -/
def unwrap (width : Nat) : List (List Char) → List Char
  | [] => []
  | [line] => line
  | line :: next :: rest =>
    if line.length = width + 1 then line.take width ++ unwrap width (next :: rest)
    else line ++ ' ' :: unwrap width (next :: rest)

/-- Nothing is lost. -/
theorem Broken.unwrap_eq (h : Broken width ws lines) : unwrap width lines = joinWords ws := by
  induction h with
  | nil => rfl
  | @line group ws lines ne_nil fits others ih =>
    cases lines with
    | nil =>
      rw [others.eq_nil_iff.1 rfl, List.append_nil]
      rfl
    | cons next rest =>
      have hws : ws ≠ [] := mt others.eq_nil_iff.2 (by simp)
      rw [unwrap, if_neg (by omega), ih, joinWords_append ne_nil hws]
  | @piece front rest ws lines full more others ih =>
    cases lines with
    | nil => cases others.eq_nil_iff.1 rfl
    | cons next lines =>
      rw [unwrap, if_pos (by simp [full]), ih, ← full, List.take_left]
      cases ws with
      | nil => rfl
      | cons w ws => simp [joinWords_cons_cons]

/-! ## Cutting a word -/

/-- What is left of a word after cutting it fits a line, and is not empty. -/
theorem cutWord_rest (hwidth : 0 < width) (word : List Char) (hne : word ≠ []) :
    (cutWord width word).2.length ≤ width ∧ (cutWord width word).2 ≠ [] := by
  fun_induction cutWord width word with
  | case1 word hfits =>
    refine ⟨?_, hne⟩
    dsimp only
    omega
  | case2 word h pieces rest hcut ih =>
    rw [hcut] at ih
    apply ih
    rw [← List.length_pos_iff, List.length_drop]
    omega

/-- Broken text stays so when the word that comes first is put back together. -/
theorem Broken.cut (word : List Char)
    (h : Broken width ((cutWord width word).2 :: ws) lines) :
    Broken width (word :: ws) ((cutWord width word).1 ++ lines) := by
  fun_induction cutWord width word with
  | case1 word hfits => exact h
  | case2 word hlong pieces rest hcut ih =>
    rw [hcut] at ih
    have hfront : (word.take width).length = width := List.length_take_of_le (by omega)
    have hrest : word.drop width ≠ [] := by
      rw [← List.length_pos_iff, List.length_drop]
      omega
    have hbroken := Broken.piece hfront hrest (ih h)
    rwa [List.take_append_drop] at hbroken

/-! ## Filling lines -/

theorem closeLine_of_ne_nil (hline : line ≠ []) : closeLine line = [line] := by
  simp [closeLine, hline]

variable {rest : List (List Char)}

theorem fillLines_open (hword : word.length ≤ width) :
    fillLines width [] (word :: rest) = fillLines width word rest := by
  rw [fillLines, if_pos hword]
  rfl

theorem fillLines_join (hline : line ≠ []) (hfits : line.length + 1 + word.length ≤ width) :
    fillLines width line (word :: rest) = fillLines width (line ++ ' ' :: word) rest := by
  have hword : word.length ≤ width := by omega
  rw [fillLines, if_pos hword, if_neg (by simp [hline]), if_pos hfits]

theorem fillLines_break (hline : line ≠ []) (hword : word.length ≤ width)
    (hfull : width < line.length + 1 + word.length) :
    fillLines width line (word :: rest) = line :: fillLines width word rest := by
  rw [fillLines, if_pos hword, if_neg (by simp [hline]), if_neg (by omega)]

theorem fillLines_cut (hword : width < word.length) :
    fillLines width line (word :: rest) = closeLine line ++
      ((cutWord width word).1 ++ fillLines width (cutWord width word).2 rest) := by
  rw [fillLines, if_neg (by omega), ← List.append_assoc]

/-- The line that was open is closed before the others. -/
theorem Broken.close (h : Broken width ws lines) (hgroup : ∀ w ∈ group, w ≠ [])
    (hfits : (joinWords group).length ≤ width) :
    Broken width (group ++ ws) (closeLine (joinWords group) ++ lines) := by
  by_cases hempty : group = []
  · subst hempty
    exact h
  · rw [closeLine_of_ne_nil (joinWords_ne_nil hempty hgroup)]
    exact .line hempty hfits h

/-- Filling lines breaks the text that is made of the words of the open line and those after it. -/
theorem broken_fillLines (hwidth : 0 < width) (group : List (List Char))
    (hgroup : ∀ w ∈ group, w ≠ []) (hfits : (joinWords group).length ≤ width)
    (hws : ∀ w ∈ ws, w ≠ []) :
    Broken width (group ++ ws) (fillLines width (joinWords group) ws) := by
  induction ws generalizing group with
  | nil =>
    have hclosed := Broken.nil.close hgroup hfits
    rwa [List.append_nil (closeLine _)] at hclosed
  | cons word rest ih =>
    obtain ⟨hword, hrest⟩ := List.forall_mem_cons.1 hws
    by_cases hlong : width < word.length
    · obtain ⟨htail, hne⟩ := cutWord_rest hwidth word hword
      have hopen := ih [(cutWord width word).2] (by simpa using hne) htail hrest
      rw [fillLines_cut hlong]
      exact (Broken.cut word hopen).close hgroup hfits
    · have hshort : word.length ≤ width := by omega
      have hopen := ih [word] (by simpa using hword) hshort hrest
      by_cases hempty : group = []
      · subst hempty
        rw [joinWords, fillLines_open hshort]
        exact hopen
      · have hline := joinWords_ne_nil hempty hgroup
        by_cases hjoin : (joinWords group).length + 1 + word.length ≤ width
        · have hjoined : joinWords (group ++ [word]) = joinWords group ++ ' ' :: word :=
            joinWords_append hempty (List.cons_ne_nil word [])
          have hall : ∀ w ∈ group ++ [word], w ≠ [] :=
            List.forall_mem_append.2 ⟨hgroup, by simpa using hword⟩
          have hfits' : (joinWords (group ++ [word])).length ≤ width := by
            rw [hjoined, List.length_append, List.length_cons]
            omega
          have hfilled := ih _ hall hfits' hrest
          rw [hjoined, List.append_assoc] at hfilled
          rwa [fillLines_join hline hjoin]
        · rw [fillLines_break hline hshort (by omega)]
          exact .line hempty hfits hopen

/-! ## Wrapped text -/

theorem broken_wrapChars (hwidth : 0 < width) (cs : List Char) :
    Broken width (words cs) (wrapChars width cs) := by
  rw [wrapChars, if_neg (Nat.ne_of_gt hwidth)]
  exact broken_fillLines hwidth [] (by simp) (Nat.zero_le width) fun w hw => (words_clean hw).1

theorem toList_wrap (width : Nat) (text : Option String) :
    (wrap width text).map String.toList = wrapChars width (text.getD "").toList := by
  simp [wrap]

/-- Wrapped text has the words of the text, joined by single blanks.  For a width of at least one,
each line holds something, and no white space but single blanks inside it; it is no longer than the
width, or it is a piece of a word as long as the width and a hyphen, which the last line is not.
Put together again, the lines are the joined words.  For the width 0 these are the only line, unless
there is no word. -/
theorem wrapping_loses_nothing (width : Nat) (text : Option String)
    (hws : ((text.getD "").toList.splitOnP isWhite).filter (!·.isEmpty) = ws)
    (hlines : (wrap width text).map String.toList = lines) :
    (0 < width →
      (∀ line ∈ lines, Tidy line ∧ (line.length ≤ width ∨ IsPiece width ws line)) ∧
      (∀ line, lines.getLast? = some line → line.length ≤ width) ∧
      unwrap width lines = [' '].intercalate ws) ∧
    (width = 0 → lines = if ws = [] then [] else [[' '].intercalate ws]) := by
  rw [← words_eq_filter_splitOnP] at hws
  rw [toList_wrap] at hlines
  rw [← joinWords_eq_intercalate]
  have hwords : ∀ w ∈ ws, IsWord w := hws ▸ fun w => words_clean
  constructor
  · intro hwidth
    have hbroken := broken_wrapChars hwidth (text.getD "").toList
    rw [hws, hlines] at hbroken
    exact ⟨fun line hline => ⟨hbroken.tidy hwords hline, hbroken.fits_or_piece hline⟩,
      fun line => hbroken.last_fits, hbroken.unwrap_eq⟩
  · rintro rfl
    rw [wrapChars, if_pos rfl, hws] at hlines
    rw [← hlines]
    by_cases hempty : ws = []
    · rw [if_pos hempty, hempty]
      rfl
    · rw [if_neg hempty, closeLine_of_ne_nil]
      exact joinWords_ne_nil hempty fun w hw => (hwords w hw).1

/-- The rest of a word that was cut twice stands on one line with the next word. -/
theorem the_rest_of_a_cut_word_shares_its_line :
    let lines := (wrap 4 (some "see  abcdefghij\nk end")).map String.toList
    lines = ["see".toList, "abcd-".toList, "efgh-".toList, "ij k".toList, "end".toList] ∧
      (∀ line ∈ lines, Tidy line) ∧ unwrap 4 lines = "see abcdefghij k end".toList := by
  intro lines
  obtain ⟨hpositive, _⟩ := wrapping_loses_nothing 4 (some "see  abcdefghij\nk end") rfl rfl
  obtain ⟨htidy, _, hunwrap⟩ := hpositive (by decide)
  exact ⟨by decide +kernel, fun line hline => (htidy line hline).1, hunwrap.trans (by decide)⟩

end MavDialect.Text
