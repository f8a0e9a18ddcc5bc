-- The X.25 digest of a sequence of bytes, 16 bits wide, as it guards frames and fingerprints
-- messages.  A byte enters a shift register bit by bit, lowest bit first.  The protocol's own
-- description takes a byte at once; `byteStep` states that formula.

namespace MavDialect

/-- The state of a digest. -/
structure Digest where
  state : UInt16
  deriving Repr, DecidableEq

namespace Digest

/-- The state before the first byte. -/
def seed : UInt16 := 0xFFFF

/-- The generator polynomial x^16 + x^12 + x^5 + 1, lowest power first. -/
def polynomial : UInt16 := 0x8408

/-- Shifts one bit out of the register, and takes the polynomial away when the bit was set. -/
def shift (crc : UInt16) : UInt16 :=
  if crc &&& 1 = 1 then (crc >>> 1) ^^^ polynomial else crc >>> 1

/-- Shifts `n` bits out of the register. -/
def shiftBits : Nat → UInt16 → UInt16
  | 0, crc => crc
  | n + 1, crc => shiftBits n (shift crc)

/-- Takes one byte into the register. -/
def absorb (crc : UInt16) (byte : UInt8) : UInt16 := shiftBits 8 (crc ^^^ byte.toUInt16)

/-- Takes one byte in by the protocol's formula. -/
def byteStep (crc : UInt16) (byte : UInt8) : UInt16 :=
  let t : UInt16 := (byte.toUInt16 ^^^ crc) &&& 0xFF
  let t : UInt16 := t ^^^ ((t <<< 4) &&& 0xFF)
  (crc >>> 8) ^^^ (t <<< 8) ^^^ (t <<< 3) ^^^ (t >>> 4)

/-- A digest that has seen nothing. -/
def start : Digest := ⟨seed⟩

instance : Inhabited Digest := ⟨start⟩

def push (d : Digest) (byte : UInt8) : Digest := ⟨absorb d.state byte⟩

def append (d : Digest) (bytes : List UInt8) : Digest := bytes.foldl push d

/-- The digest of all bytes together. -/
def ofBytes (bytes : List UInt8) : UInt16 := (start.append bytes).state

/-- Folds a digest into one byte. -/
def toByte (crc : UInt16) : UInt8 := ((crc &&& (0xFF : UInt16)) ^^^ (crc >>> 8)).toUInt8

/-! ## For debugging -/

/-- Four hexadecimal digits. -/
def hex (crc : UInt16) : List Char :=
  [4096, 256, 16, 1].map fun unit => Nat.digitChar (crc.toNat / unit % 16)

/-- The state in a form for debugging. -/
def describe (d : Digest) : String :=
  "X25Crc \x7b crc: 0x" ++ String.ofList (hex d.state) ++ " \x7d"

end Digest

end MavDialect
