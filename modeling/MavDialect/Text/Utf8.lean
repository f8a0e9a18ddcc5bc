-- Texts as bytes.

namespace MavDialect.Text

/-- The UTF-8 bytes of a text. -/
def utf8 (text : String) : List UInt8 := text.toList.flatMap String.utf8EncodeChar

end MavDialect.Text
