-- How texts begin: cutting off a given beginning, and the longest beginning that several
-- texts share.
-- Law: `dropFront? front cs` is what follows `front` in `cs`, and exists only there.

namespace MavDialect.Text

/-- What follows `front`, in a text that begins with it. -/
def dropFront? : (front cs : List Char) → Option (List Char)
  | [], cs => some cs
  | _ :: _, [] => none
  | f :: front, c :: cs => if f = c then dropFront? front cs else none

theorem dropFront?_eq_some_iff {front cs rest : List Char} :
    dropFront? front cs = some rest ↔ cs = front ++ rest := by
  induction front generalizing cs with
  | nil => simp [dropFront?]
  | cons f front ih =>
    cases cs with
    | nil => simp [dropFront?]
    | cons c cs =>
      by_cases h : f = c
      · simp [dropFront?, h, ih]
      · simp [dropFront?, h, Ne.symm h]

/-- The longest beginning of two texts. -/
def commonFront : List Char → List Char → List Char
  | a :: as, b :: bs => if a = b then a :: commonFront as bs else []
  | _, _ => []

/-- The longest beginning that all texts share, which is empty when there are none. -/
def sharedFront : List (List Char) → List Char
  | [] => []
  | first :: rest => rest.foldl commonFront first

/-- Everything up to the last `mark` and the mark itself. -/
def upToLast (mark : Char) : List Char → List Char
  | [] => []
  | c :: cs =>
    match upToLast mark cs with
    | [] => if c = mark then [c] else []
    | kept => c :: kept

end MavDialect.Text
