-- Upper and lower case of whole texts.  Lower-casing a text differs from lower-casing its
-- characters in one place: a capital sigma at the end of a word becomes `ς`, not `σ`.
import MavDialect.Text.CaseRun
import MavDialect.Text.Cased

namespace MavDialect.Text

/-- The image of `c`: its expansion if it has one, else the code point its run moves it to. -/
def mapCase (runs : List CaseRun) (expansions : List (Nat × List Nat)) (c : Char) : List Char :=
  match expansions.lookup c.toNat with
  | some codes => codes.map Char.ofNat
  | none => [Char.ofNat (c.toNat + shiftOf c.toNat runs).toNat]

/-- The upper case of one character, which may be several. -/
def upper (c : Char) : List Char := mapCase upperRuns upperExpansions c

/-- The lower case of one character that stands alone. -/
def lower (c : Char) : List Char := mapCase lowerRuns lowerExpansions c

/-- The first character in upper case, the others as they are. -/
def upperFirst : List Char → List Char
  | [] => []
  | c :: cs => upper c ++ cs

/-! ## The final sigma -/

/-- The next letter, past the characters that do not separate, has a case. -/
def meetsCased (cs : List Char) : Bool :=
  match cs.dropWhile isCaseIgnorable with
  | [] => false
  | c :: _ => isCased c

/-- A sigma ends a word when a letter goes before it and none comes after it.  The characters
before it are given from the nearest to the farthest. -/
def endsWord (before after : List Char) : Bool := meetsCased before && !meetsCased after

/-- Lower case of a text whose earlier characters, nearest first, are `before`. -/
def lowerAfter (before : List Char) : List Char → List Char
  | [] => []
  | c :: cs =>
    (if c = 'Σ' then [if endsWord before cs then 'ς' else 'σ'] else lower c) ++
      lowerAfter (c :: before) cs

/-- The lower case of a text. -/
def lowerAll (cs : List Char) : List Char := lowerAfter [] cs

end MavDialect.Text
