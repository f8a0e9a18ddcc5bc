-- The prefix that the value names of an enum share, and the short names without it: in enum
-- `MAV_TEST`, `MAV_TEST_FIRST` becomes `FIRST`.
import MavDialect.Text.Front

namespace MavDialect.Naming

open Text

/-- The prefix to cut from the value names: the longest shared one that ends in `_`.  Without
one, and where it reaches past the enum's name and `_`, it is the enum's name and `_`. -/
def sharedPrefix (enumName : String) (valueNames : List String) : String :=
  let shared := upToLast '_' (sharedFront (valueNames.map String.toList))
  let own := enumName.toList ++ ['_']
  if shared.isEmpty || (enumName.toList.isPrefixOf shared && own.length < shared.length) then
    String.ofList own
  else String.ofList shared

/-- The name without the prefix `front`.  A name that would be empty or start with a digit is
kept whole. -/
def shortName (name front : String) : String :=
  match dropFront? front.toList name.toList with
  | none => name
  | some [] => name
  | some (c :: cs) => if c.isDigit then name else String.ofList (c :: cs)

end MavDialect.Naming
