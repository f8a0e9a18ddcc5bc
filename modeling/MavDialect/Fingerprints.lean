-- The fingerprints of messages by their ids.  Ids may repeat; the last one written counts.
import MavDialect.Message.Basic
import MavDialect.SortedMap.Basic

namespace MavDialect

abbrev Fingerprints := SortedMap Int UInt8

def Fingerprints.ofMessages (messages : List Message) : Fingerprints :=
  .ofList (messages.map fun m => (m.id, m.fingerprint))

end MavDialect
