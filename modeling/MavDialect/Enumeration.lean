-- Enums and their values.  A value's parameters matter where the enum declares commands.
import MavDialect.Deprecation
import MavDialect.Naming.EnumPrefix

namespace MavDialect

structure EnumParam where
  index : Nat
  label : Option String
  units : String
  minValue : Option String
  maxValue : Option String
  increment : Option String
  enumName : Option String
  reserved : Bool
  description : List String
  deriving Repr, DecidableEq

structure EnumValue where
  sourceName : String
  name : String
  value : Int
  /-- The number as it was declared; where none was, in decimal notation. -/
  sourceValue : String
  description : List String
  params : List EnumParam
  hasLocation : Bool
  isDestination : Bool
  workInProgress : Bool
  deprecated : Option Deprecation
  deriving Repr, DecidableEq

structure Enumeration where
  name : String
  sourceName : String
  description : List String
  /-- What was cut off the names of the values; empty until they are shortened. -/
  commonPrefix : String
  values : List EnumValue
  deriving Repr, DecidableEq

namespace Enumeration

/-- Finds the common prefix and shortens the name of every value by it. -/
def shortenNames (e : Enumeration) : Enumeration :=
  let front := Naming.sharedPrefix e.sourceName (e.values.map (·.sourceName))
  { e with
    commonPrefix := front
    values := e.values.map fun v => { v with name := Naming.shortName v.sourceName front } }

end Enumeration

/-- The length of the longest value name in all enums, 0 when there is no value. -/
def longestValueName (enums : List Enumeration) : Nat :=
  (enums.flatMap fun e => e.values.map (·.name.length)).foldl max 0

end MavDialect
