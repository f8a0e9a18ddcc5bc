-- Breaking free text into lines of a given width.  Words are never joined, and only a word
-- that fits no line is cut.
import MavDialect.Text.White

namespace MavDialect.Text

theorem length_drop_lt {width : Nat} {word : List Char}
    (h : ¬(width = 0 ∨ word.length ≤ width)) : (word.drop width).length < word.length := by
  rw [List.length_drop]
  omega

/-- Cuts a word into pieces of `width` characters, each followed by a hyphen, and the rest,
which fits a line. -/
def cutWord (width : Nat) (word : List Char) : List (List Char) × List Char :=
  if width = 0 ∨ word.length ≤ width then ([], word)
  else
    let (pieces, rest) := cutWord width (word.drop width)
    ((word.take width ++ ['-']) :: pieces, rest)
termination_by word.length
decreasing_by exact length_drop_lt ‹_›

/-- A line that holds nothing is not kept. -/
def closeLine (line : List Char) : List (List Char) := if line.isEmpty then [] else [line]

/-- Fills lines from left to right: a word joins the open line when it still fits there, and
else opens a line of its own. -/
def fillLines (width : Nat) (line : List Char) : List (List Char) → List (List Char)
  | [] => closeLine line
  | word :: rest =>
    if word.length ≤ width then
      if line.isEmpty then fillLines width word rest
      else if line.length + 1 + word.length ≤ width then
        fillLines width (line ++ ' ' :: word) rest
      else line :: fillLines width word rest
    else
      let (pieces, tail) := cutWord width word
      closeLine line ++ pieces ++ fillLines width tail rest

/-- The words joined by single blanks. -/
def joinWords : List (List Char) → List Char
  | [] => []
  | [word] => word
  | word :: rest => word ++ ' ' :: joinWords rest

/-- Lines of at most `width` characters; width 0 keeps everything in one line.  Blank text has
no lines. -/
def wrapChars (width : Nat) (cs : List Char) : List (List Char) :=
  if width = 0 then closeLine (joinWords (words cs)) else fillLines width [] (words cs)

/-- The lines of a text that may be missing. -/
def wrap (width : Nat) (text : Option String) : List String :=
  (wrapChars width ((text.getD "").toList)).map String.ofList

end MavDialect.Text
