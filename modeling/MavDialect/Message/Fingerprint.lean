-- The fingerprint of a message's definition.  Both ends of a link add it to each frame, so that
-- a frame of another definition is refused.
import MavDialect.Message.Layout
import MavDialect.Text.Utf8
import MavDialect.Wire.Digest

namespace MavDialect.Fingerprint

/-- What a base field contributes: the names of its type and of itself, each with a blank after
it, and for an array the low byte of its length. -/
def fieldBytes (f : Field) : List UInt8 :=
  Text.utf8 f.elementType.fingerprintName ++ 32 :: Text.utf8 f.sourceName ++ [32] ++
    (f.arrayLength.toList.map UInt8.ofNat)

/-- The bytes the fingerprint is taken of: the message's name and a blank, then the base fields
in payload order.  Extension fields do not count. -/
def input (sourceName : String) (fields : List Field) : List UInt8 :=
  Text.utf8 sourceName ++ 32 :: (Layout.wireBaseFields fields).flatMap fieldBytes

/-- The fingerprint: the digest of the input, folded into one byte. -/
def ofFields (sourceName : String) (fields : List Field) : UInt8 :=
  Digest.toByte (Digest.ofBytes (input sourceName fields))

end MavDialect.Fingerprint
