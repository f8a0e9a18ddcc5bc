-- The numbers that enum values may be declared with: decimal, hexadecimal after `0x`, binary
-- after `0b`, and powers of two written `2**n`.  All of them fit 128 bits.
import MavDialect.Text.Front
import MavDialect.Text.Numeral
import MavDialect.Text.White

namespace MavDialect.EnumNumeral

open Text

/-- A power of two by its exponent, which is below 127. -/
def power? (exponent : List Char) : Option Int :=
  ((natural? 10 (trimChars exponent)).filter (· < 127)).map fun n => ((1 <<< n : Nat) : Int)

/-- A number without its base mark. -/
def inBase? (base : Nat) (cs : List Char) : Option Int := integerWithin? 128 base cs

/-- A number with no white space around it. -/
def readTrimmed? (cs : List Char) : Option Int :=
  match dropFront? "2**".toList cs with
  | some exponent => power? exponent
  | none =>
    match cs with
    | '0' :: mark :: digits =>
      if mark = 'x' ∨ mark = 'X' then inBase? 16 digits
      else if mark = 'b' ∨ mark = 'B' then inBase? 2 digits
      else inBase? 10 cs
    | _ => inBase? 10 cs

/-- Reads a declared number. -/
def read? (text : String) : Option Int := readTrimmed? (trimChars text.toList)

end MavDialect.EnumNumeral
