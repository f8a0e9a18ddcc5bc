-- Identifiers for generated code, made from declared names and from free-text labels.
-- A hump is an upper-case letter inside a word, where the declaration had a separator.
import MavDialect.Text.Case
import MavDialect.Text.Replace
import MavDialect.Text.White
import MavDialect.Text.Word

namespace MavDialect.Naming

open Text

/-! ## Declared names -/

/-- A hyphen or an underscore. -/
def isSeparator (c : Char) : Bool := c = '-' || c = '_'

/-- Drops each separator before a word character and puts that character in upper case. -/
def humpSeparators : List Char → List Char
  | [] => []
  | [c] => [c]
  | s :: c :: cs =>
    if isSeparator s && isWord c then upper c ++ humpSeparators cs
    else s :: humpSeparators (c :: cs)

/-- `custom_mode` becomes `customMode`. -/
def camel (name : String) : String := String.ofList (humpSeparators name.toList)

/-- `custom_mode` becomes `CustomMode`. -/
def pascal (name : String) : String :=
  String.ofList (upperFirst (humpSeparators name.toList))

/-- The class of a declared enum or message: `MAV_AUTOPILOT` becomes `MavAutopilot`. -/
def className (name : String) : String :=
  String.ofList (upperFirst (humpSeparators (lowerAll name.toList)))

/-! ## Labels of parameters -/

/-- Drops white space and puts a word character right after it in upper case.  `afterWhite` says
whether white space was just dropped. -/
def humpWhite (afterWhite : Bool) : List Char → List Char
  | [] => []
  | c :: cs =>
    if isWhite c then humpWhite true cs
    else (if afterWhite && isWord c then upper c else [c]) ++ humpWhite false cs

/-- Drops the first `mark`, unless nothing follows it, and puts the character after it in upper
case. -/
def humpMark (mark : Char) (cs : List Char) : List Char :=
  match cs.dropWhile (· ≠ mark) with
  | _ :: c :: rest => cs.takeWhile (· ≠ mark) ++ upper c ++ rest
  | _ => cs

/-- The ordinals that are spelled out, by their digit. -/
def ordinalWord? : Char → Option (List Char)
  | '4' => some "fourth".toList
  | '5' => some "fifth".toList
  | '6' => some "sixth".toList
  | _ => none

/-- Spells out `4th`, `5th` and `6th`.  `fresh` says that the text starts here or that the
character before is no ASCII digit and not the end of an ordinal that was spelled out. -/
def spellOrdinals (fresh : Bool) : List Char → List Char
  | [] => []
  | d :: 't' :: 'h' :: rest =>
    match fresh, ordinalWord? d with
    | true, some word => word ++ spellOrdinals false rest
    | _, _ => d :: 't' :: 'h' :: spellOrdinals true rest
  | c :: rest => c :: spellOrdinals (!c.isDigit) rest

/-- The label's part before its first slash, in lower case with humps for white space, for two
hyphens and for one point. -/
def labelHead (label : List Char) : List Char :=
  let head := (humpWhite false (lowerAll label)).takeWhile (· ≠ '/')
  humpMark '.' (humpMark '-' (humpMark '-' head))

/-- The accessor of a parameter with this label.  The steps run in this order: humps, ordinals,
and `cmd` for `command`. -/
def labelIdentifier (label : String) : String :=
  String.ofList
    (replaceAll "command".toList "cmd".toList (spellOrdinals true (labelHead label.toList)))

/-! ## Commands -/

/-- From its first word character on, a word starts in upper case and goes on in lower case. -/
def titleWord : List Char → List Char
  | [] => []
  | c :: cs => if isWord c then upper c ++ lowerAll cs else c :: titleWord cs

/-- The class of a command: `NAV_WAYPOINT` becomes `NavWaypointCommand`. -/
def commandClassName (name : String) : String :=
  let blanked := name.toList.map fun c => if c = '_' then ' ' else c
  String.ofList ((mapWords titleWord blanked).filter (· ≠ ' ') ++ "Command".toList)

end MavDialect.Naming
