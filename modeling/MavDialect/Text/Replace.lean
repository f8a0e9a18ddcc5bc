-- Replacing every occurrence of a text by another one, from left to right.

namespace MavDialect.Text

/-- Leaves out `skip` characters, then puts `new` for each occurrence of `old` that does not
overlap an earlier one. -/
def replaceFrom (old new : List Char) : (skip : Nat) → List Char → List Char
  | _, [] => []
  | skip + 1, _ :: cs => replaceFrom old new skip cs
  | 0, c :: cs =>
    if old.isPrefixOf (c :: cs) then new ++ replaceFrom old new (old.length - 1) cs
    else c :: replaceFrom old new 0 cs

/-- Puts `new` for each occurrence of the non-empty text `old`. -/
def replaceAll (old new cs : List Char) : List Char := replaceFrom old new 0 cs

end MavDialect.Text
