-- Commands: the values of one distinguished enum, with the parameters that have a label.
import MavDialect.CompileError
import MavDialect.Enumeration
import MavDialect.Naming.Identifier

namespace MavDialect

structure CommandParam where
  index : Nat
  /-- The accessor made from the label. -/
  name : String
  /-- The label as declared. -/
  label : String
  units : String
  minValue : Option String
  maxValue : Option String
  increment : Option String
  description : List String
  deriving Repr, DecidableEq

structure Command where
  sourceName : String
  name : String
  className : String
  value : Int
  description : List String
  hasLocation : Bool
  isDestination : Bool
  params : List CommandParam
  deriving Repr, DecidableEq

/-- A parameter without a label, or with a blank one, has no accessor. -/
def CommandParam.ofParam? (p : EnumParam) : Option CommandParam :=
  match p.label with
  | none => none
  | some label =>
    if Text.isBlank label then none
    else some
      { index := p.index
        name := Naming.labelIdentifier label
        label
        units := p.units
        minValue := p.minValue
        maxValue := p.maxValue
        increment := p.increment
        description := p.description }

namespace Command

/-- The class of the enum whose values are commands. -/
def enumClass : String := "MavCmd"

def ofValue (v : EnumValue) : Command where
  sourceName := v.sourceName
  name := v.name
  className := Naming.commandClassName v.name
  value := v.value
  description := v.description
  hasLocation := v.hasLocation
  isDestination := v.isDestination
  params := v.params.filterMap CommandParam.ofParam?

/-- A command for each value of the first enum of that class, work in progress left out. -/
def ofEnums (enums : List Enumeration) : Except CompileError (List Command) :=
  match enums.find? (·.name == enumClass) with
  | none => .error .noCommandEnum
  | some e => .ok ((e.values.filter (!·.workInProgress)).map ofValue)

end Command

end MavDialect
