-- One dialect definition to be compiled: its name and its tree.
import MavDialect.Element.Json

namespace MavDialect

structure Source where
  name : String
  root : Element

namespace Source

/-- Reads a source where `room` containers may be nested; it is one of them. -/
def ofJson? : (room : Nat) → Json → Option Source
  | 0, _ => none
  | room + 1, v => do
    let fields ← v.record? ["name", "root"]
    let name ← (← fields.lookup "name").asString?
    let root ← Element.ofJson? room (← fields.lookup "root")
    return ⟨name, root⟩

def read? (text : String) : Option Source :=
  (Json.parse? text).bind (ofJson? Element.nestingLimit)

end Source

end MavDialect
