-- What a compilation reports while it runs: each event keeps what it is about, and has a level
-- and a wording.
import MavDialect.CompileError
import MavDialect.Json.Printer

namespace MavDialect

inductive LogLevel where
  | trace
  | debug
  | warn
  deriving Repr, DecidableEq

inductive LogEvent where
  | enumBegun (name : String)
  | paramIndexIgnored (entry text : String) (used : Nat)
  | messageLaidOut (name : String) (id : Int) (payloadLength : Nat) (fingerprint : UInt8)
  | messageSkipped (name : String)
  | noCommandEnum (dialect : String)
  | dialectCompiled (dialect : String) (enums messages commands : Nat)
  | numberIgnored (dialect element text : String)
  | dialectFailed (dialect : String) (cause : CompileError)
  | batchCompiled (dialects fingerprints : Nat)
  deriving Repr, DecidableEq

namespace LogEvent

open Text (decimalText)

def level : LogEvent → LogLevel
  | enumBegun _ | messageLaidOut .. | messageSkipped _ => .trace
  | noCommandEnum _ | dialectCompiled .. | batchCompiled .. => .debug
  | paramIndexIgnored .. | numberIgnored .. | dialectFailed .. => .warn

def message : LogEvent → String
  | enumBegun name => "enum " ++ name
  | paramIndexIgnored entry text used =>
    entry ++ ": param index " ++ Json.quote text ++ " is not a number, using " ++ decimalText used
  | messageLaidOut name id payloadLength fingerprint =>
    "message " ++ name ++ " #" ++ decimalText id ++ ": payload " ++ decimalText payloadLength ++
      " bytes, magic " ++ decimalText fingerprint.toNat
  | messageSkipped name => "skipping work-in-progress message " ++ name
  | noCommandEnum dialect =>
    "dialect " ++ Json.quote dialect ++ " declares no MavCmd enum; no commands derived"
  | dialectCompiled dialect enums messages commands =>
    "dialect " ++ Json.quote dialect ++ ": " ++ decimalText enums ++ " enums, " ++
      decimalText messages ++ " messages, " ++ decimalText commands ++ " commands"
  | numberIgnored dialect element text =>
    "dialect " ++ Json.quote dialect ++ ": ignoring <" ++ element ++ "> " ++ Json.quote text
  | dialectFailed dialect cause => "dialect " ++ dialect ++ " failed: " ++ cause.message
  | batchCompiled dialects fingerprints =>
    "compiled " ++ decimalText dialects ++ " dialects, " ++ decimalText fingerprints ++
      " message checksums"

end LogEvent

end MavDialect
