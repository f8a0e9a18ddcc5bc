-- White space, and the three things done with it: cutting it off both ends of a text,
-- splitting a text into words, and changing each word where it stands.
-- Law: no word is empty, and no word holds white space.
import MavDialect.Text.CodeRange

namespace MavDialect.Text

/-- The code points of white space, Unicode 16.0: the blanks, tabs and line ends. -/
def whiteRanges : List (Nat × Nat) :=
  [(0x9, 0xD), (0x20, 0x20), (0x85, 0x85), (0xA0, 0xA0), (0x1680, 0x1680), (0x2000, 0x200A),
   (0x2028, 0x2029), (0x202F, 0x202F), (0x205F, 0x205F), (0x3000, 0x3000)]

def isWhite (c : Char) : Bool := inRanges c.toNat whiteRanges

/-! ## Both ends -/

/-- Without the white space at the end. -/
def trimEnd : List Char → List Char
  | [] => []
  | c :: cs =>
    match trimEnd cs with
    | [] => if isWhite c then [] else [c]
    | kept => c :: kept

/-- Without the white space at both ends. -/
def trimChars (cs : List Char) : List Char := trimEnd (cs.dropWhile isWhite)

def trim (text : String) : String := String.ofList (trimChars text.toList)

/-- Nothing but white space, or nothing at all. -/
def isBlank (text : String) : Bool := text.toList.all isWhite

/-! ## Words -/

/-- The characters up to the first white space, and the words after it. -/
def splitWord : List Char → List Char × List (List Char)
  | [] => ([], [])
  | c :: cs =>
    let (word, rest) := splitWord cs
    if isWhite c then ([], if word.isEmpty then rest else word :: rest) else (c :: word, rest)

/-- The maximal runs of characters other than white space, in order. -/
def words (cs : List Char) : List (List Char) :=
  let (word, rest) := splitWord cs
  if word.isEmpty then rest else word :: rest

/-- The characters up to the first white space, and the rest with `f` applied to each word. -/
def splitMapped (f : List Char → List Char) : List Char → List Char × List Char
  | [] => ([], [])
  | c :: cs =>
    let (word, rest) := splitMapped f cs
    if isWhite c then ([], c :: (f word ++ rest)) else (c :: word, rest)

/-- Applies `f` to every word and keeps the white space as it is. -/
def mapWords (f : List Char → List Char) (cs : List Char) : List Char :=
  let (word, rest) := splitMapped f cs
  f word ++ rest

theorem splitWord_clean (cs : List Char) :
    (∀ c ∈ (splitWord cs).1, isWhite c = false) ∧
      ∀ w ∈ (splitWord cs).2, w ≠ [] ∧ ∀ c ∈ w, isWhite c = false := by
  induction cs with
  | nil => simp [splitWord]
  | cons c cs ih =>
    obtain ⟨hword, hrest⟩ := ih
    cases hc : isWhite c
    · simp only [splitWord, hc]
      refine ⟨fun d hd => ?_, hrest⟩
      rcases List.mem_cons.1 hd with rfl | hd
      · exact hc
      · exact hword d hd
    · simp only [splitWord, hc]
      refine ⟨by simp, ?_⟩
      cases hw : (splitWord cs).1 with
      | nil => simpa [hw] using hrest
      | cons d ds =>
        intro w hmem
        simp only [List.isEmpty_cons, Bool.false_eq_true, if_false, if_true] at hmem
        rcases List.mem_cons.1 hmem with rfl | hmem
        · exact ⟨by simp, hw ▸ hword⟩
        · exact hrest w hmem

/-- No word is empty or holds white space. -/
theorem words_clean {cs w : List Char} (h : w ∈ words cs) :
    w ≠ [] ∧ ∀ c ∈ w, isWhite c = false := by
  obtain ⟨hword, hrest⟩ := splitWord_clean cs
  simp only [words] at h
  cases hw : (splitWord cs).1 with
  | nil => exact hrest w (by simpa [hw] using h)
  | cons d ds =>
    simp only [hw, List.isEmpty_cons, Bool.false_eq_true, if_false] at h
    rcases List.mem_cons.1 h with rfl | h
    · exact ⟨by simp, hw ▸ hword⟩
    · exact hrest w h

end MavDialect.Text
