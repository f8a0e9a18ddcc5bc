-- Everything that one dialect definition yields.
import MavDialect.Command
import MavDialect.Fingerprints

namespace MavDialect

structure Dialect where
  name : String
  version : Option Nat
  dialect : Option Nat
  includes : List String
  enums : List Enumeration
  messages : List Message
  commands : List Command
  deriving Repr, DecidableEq

namespace Dialect

/-- The first enum of this class. -/
def enum? (d : Dialect) (name : String) : Option Enumeration :=
  d.enums.find? (·.name == name)

/-- The first message of this class. -/
def message? (d : Dialect) (name : String) : Option Message :=
  d.messages.find? (·.name == name)

/-- The first message with this id. -/
def messageWithId? (d : Dialect) (id : Int) : Option Message := d.messages.find? (·.id == id)

def fingerprints (d : Dialect) : Fingerprints := .ofMessages d.messages

end Dialect

/-- The fingerprints of all dialects; of an id that repeats, the last message counts. -/
def Fingerprints.ofDialects (dialects : List Dialect) : Fingerprints :=
  dialects.foldl (fun all d => all.merge d.fingerprints) .empty

end MavDialect
