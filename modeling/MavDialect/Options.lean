-- What the compiler lets its user choose.
import MavDialect.Json.Reader

namespace MavDialect

structure Options where
  /-- The width of wrapped descriptions; 0 keeps each in one line. -/
  wrapWidth : Nat := 100
  deriving Repr, DecidableEq, Inhabited

namespace Options

/-- A width is an integer from 0 to 2^64 - 1. -/
def readWidth? : Json → Option Nat
  | .scalar (.int n) => if 0 ≤ n ∧ n < UInt64.size then some n.toNat else none
  | _ => none

/-- Reads options from an object with no other member than `wrap_width`, or from an array with
that value at most. -/
def ofJson? (v : Json) : Option Options :=
  match v.record? ["wrap_width"] with
  | some [] => some {}
  | some [("wrap_width", width)] => (readWidth? width).map fun n => { wrapWidth := n }
  | _ => none

def read? (text : String) : Option Options := (Json.parse? text).bind ofJson?

end Options

end MavDialect
