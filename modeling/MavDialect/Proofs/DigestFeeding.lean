-- The digest, however it is computed and however it is fed.  The register is linear: what it makes
-- of the sum of two states is the sum of what it makes of each.  So in eight shifts the high byte
-- only moves down, the low byte decides what is added to it, and the protocol's formula is what
-- this comes to.  Feeding is folding, so it does not matter how the bytes are grouped.
import MavDialect.Wire.Digest
import Mathlib.Data.Nat.Bitwise

namespace MavDialect.Digest

/-! ## One bit -/

theorem low_bit_iff (crc : UInt16) : crc &&& 1 = 1 ↔ crc.toNat % 2 = 1 := by
  rw [← UInt16.toNat_inj, UInt16.toNat_and]
  show crc.toNat &&& 1 = 1 ↔ _
  rw [Nat.and_one_is_mod]

theorem reverse_xor (a b : BitVec 16) : (a ^^^ b).reverse = a.reverse ^^^ b.reverse := by
  apply BitVec.eq_of_getLsbD_eq
  intro i _
  simp only [BitVec.getLsbD_reverse, BitVec.getLsbD_xor, BitVec.getMsbD_xor]

theorem reverse_ushiftRight (a : BitVec 16) : (a >>> 1).reverse = a.reverse <<< 1 := by
  apply BitVec.eq_of_getLsbD_eq
  intro i _
  simp only [BitVec.getLsbD_reverse, BitVec.getMsbD_ushiftRight, BitVec.getLsbD_shiftLeft,
    Bool.and_assoc]

/-- Seen in a mirror, the register divides by x^16 + x^12 + x^5 + 1, highest power first: the state
moves up, and the polynomial is taken away when the bit that leaves was set. -/
theorem shift_is_mirrored_division (crc : UInt16) :
    (shift crc).toBitVec.reverse =
      if crc.toBitVec.reverse.msb then (crc.toBitVec.reverse <<< 1) ^^^ 0x1021#16
      else crc.toBitVec.reverse <<< 1 := by
  have hbit : crc.toBitVec.reverse.msb ↔ crc &&& 1 = 1 := by
    rw [low_bit_iff, BitVec.msb_reverse, BitVec.getLsbD, Nat.testBit_zero, decide_eq_true_iff]
    rfl
  have hpolynomial : polynomial.toBitVec.reverse = 0x1021#16 := by decide
  simp only [hbit, shift]
  split
  · rw [UInt16.toBitVec_xor, reverse_xor, hpolynomial, UInt16.toBitVec_shiftRight]
    exact congrArg (· ^^^ 0x1021#16) (reverse_ushiftRight _)
  · rw [UInt16.toBitVec_shiftRight]
    exact reverse_ushiftRight _

/-- The register is linear. -/
theorem shift_xor (a b : UInt16) : shift (a ^^^ b) = shift a ^^^ shift b := by
  have hlow : (a ^^^ b).toNat % 2 = (a.toNat + b.toNat) % 2 := by
    rw [UInt16.toNat_xor, Nat.xor_mod_two_eq]
  have htwice (x y : UInt16) : x ^^^ polynomial ^^^ (y ^^^ polynomial) = x ^^^ y := by
    rw [UInt16.xor_comm y, UInt16.xor_assoc, ← UInt16.xor_assoc polynomial, UInt16.xor_self,
      UInt16.zero_xor]
  unfold shift
  simp only [low_bit_iff, hlow, UInt16.shiftRight_xor]
  rcases Nat.mod_two_eq_zero_or_one a.toNat with ha | ha <;>
    rcases Nat.mod_two_eq_zero_or_one b.toNat with hb | hb
  · rw [if_neg (by omega), if_neg (by omega), if_neg (by omega)]
  · rw [if_pos (by omega), if_neg (by omega), if_pos hb, UInt16.xor_assoc]
  · rw [if_pos (by omega), if_pos ha, if_neg (by omega)]
    ac_rfl
  · -- both take the polynomial away, and in the sum it cancels
    rw [if_neg (by omega), if_pos ha, if_pos hb, htwice]

theorem shiftBits_xor (n : Nat) (a b : UInt16) :
    shiftBits n (a ^^^ b) = shiftBits n a ^^^ shiftBits n b := by
  induction n generalizing a b with
  | zero => rfl
  | succ n ih => rw [shiftBits, shift_xor, ih, shiftBits, shiftBits]

/-! ## One byte -/

theorem toNat_halved (crc : UInt16) : (crc >>> 1).toNat = crc.toNat / 2 := by
  rw [UInt16.toNat_shiftRight]
  exact Nat.shiftRight_eq_div_pow _ 1

theorem toNat_shift_of_even (crc : UInt16) (h : crc.toNat % 2 = 0) :
    (shift crc).toNat = crc.toNat / 2 := by
  have hlow : ¬ crc &&& 1 = 1 := by
    rw [low_bit_iff]
    omega
  rw [shift, if_neg hlow, toNat_halved]

/-- A state whose lowest bits are clear only moves down. -/
theorem toNat_shiftBits_of_clear {n : Nat} {crc : UInt16} (h : crc.toNat % 2 ^ n = 0) :
    (shiftBits n crc).toNat = crc.toNat / 2 ^ n := by
  induction n generalizing crc with
  | zero => simp [shiftBits]
  | succ n ih =>
    rw [Nat.pow_succ', Nat.mod_mul] at h
    have hpos : 0 < 2 ^ n := Nat.two_pow_pos n
    have hshift := toNat_shift_of_even crc (by omega)
    rw [shiftBits, ih (by rw [hshift]; omega), hshift, Nat.div_div_eq_div_mul, Nat.pow_succ']

/-- A state is the sum of its high byte and its low byte. -/
theorem split_bytes (crc : UInt16) : crc = (crc &&& 0xFF00) ^^^ (crc &&& 0xFF) := by
  apply UInt16.eq_of_toBitVec_eq
  rw [UInt16.toBitVec_xor, UInt16.toBitVec_and, UInt16.toBitVec_and]
  show crc.toBitVec = (crc.toBitVec &&& ~~~255#16) ^^^ (crc.toBitVec &&& 255#16)
  ext i hi
  simp only [BitVec.getElem_xor, BitVec.getElem_and, BitVec.getElem_not]
  cases crc.toBitVec[i] <;> cases (255#16)[i] <;> rfl

/-- What the protocol's formula makes of a low byte. -/
def spread (t : UInt16) : UInt16 :=
  let t := t ^^^ ((t <<< 4) &&& 0xFF)
  (t <<< 8) ^^^ (t <<< 3) ^^^ (t >>> 4)

theorem shiftBits_octet : ∀ t : Fin 256, shiftBits 8 (.ofNat t) = spread (.ofNat t) := by
  decide +kernel

theorem shiftBits_low (crc : UInt16) : shiftBits 8 (crc &&& 0xFF) = spread (crc &&& 0xFF) := by
  have hlt : (crc &&& 0xFF).toNat < 256 := by
    rw [UInt16.toNat_and]
    exact Nat.lt_of_le_of_lt Nat.and_le_right (by decide)
  have h := shiftBits_octet ⟨_, hlt⟩
  rwa [UInt16.ofNat_toNat] at h

theorem shiftBits_high (crc : UInt16) : shiftBits 8 (crc &&& 0xFF00) = crc >>> 8 := by
  have hclear : (crc &&& 0xFF00).toNat % 2 ^ 8 = 0 := by
    rw [UInt16.toNat_and, Nat.and_mod_two_pow]
    exact Nat.and_zero _
  have hbyte : crc.toNat / 2 ^ 8 < 2 ^ 8 := by
    have := crc.toNat_lt
    omega
  rw [← UInt16.toNat_inj, toNat_shiftBits_of_clear hclear, UInt16.toNat_and,
    Nat.and_div_two_pow, UInt16.toNat_shiftRight]
  show crc.toNat / 2 ^ 8 &&& 2 ^ 8 - 1 = crc.toNat >>> 8
  rw [Nat.and_two_pow_sub_one_eq_mod, Nat.mod_eq_of_lt hbyte, Nat.shiftRight_eq_div_pow]

theorem byteStep_eq_spread (crc : UInt16) (byte : UInt8) :
    byteStep crc byte = (crc >>> 8) ^^^ spread ((crc ^^^ byte.toUInt16) &&& 0xFF) := by
  rw [UInt16.xor_comm crc byte.toUInt16]
  simp only [byteStep, spread, UInt16.xor_assoc]

/-- A byte is the low half of a state. -/
theorem toUInt16_shiftRight (byte : UInt8) : byte.toUInt16 >>> 8 = 0 := by
  rw [← UInt16.toNat_inj, UInt16.toNat_shiftRight, UInt8.toNat_toUInt16]
  exact (Nat.shiftRight_eq_div_pow ..).trans (Nat.div_eq_of_lt byte.toNat_lt)

/-- Eight shifts of the register come to the protocol's formula, in every state and for every
byte. -/
theorem absorb_eq_byteStep (crc : UInt16) (byte : UInt8) : absorb crc byte = byteStep crc byte := by
  calc absorb crc byte
      = shiftBits 8 ((crc ^^^ byte.toUInt16) &&& 0xFF00) ^^^
          shiftBits 8 ((crc ^^^ byte.toUInt16) &&& 0xFF) := by
        rw [← shiftBits_xor, ← split_bytes, absorb]
    _ = ((crc ^^^ byte.toUInt16) >>> 8) ^^^ spread ((crc ^^^ byte.toUInt16) &&& 0xFF) := by
        rw [shiftBits_high, shiftBits_low]
    _ = (crc >>> 8) ^^^ spread ((crc ^^^ byte.toUInt16) &&& 0xFF) := by
        rw [UInt16.shiftRight_xor, toUInt16_shiftRight, UInt16.xor_zero]
    _ = byteStep crc byte := (byteStep_eq_spread crc byte).symm

/-! ## Many bytes -/

theorem state_append (d : Digest) (bytes : List UInt8) :
    (d.append bytes).state = bytes.foldl absorb d.state := by
  induction bytes generalizing d with
  | nil => rfl
  | cons byte rest ih => exact ih (d.push byte)

theorem append_append (d : Digest) (bytes others : List UInt8) :
    (d.append bytes).append others = d.append (bytes ++ others) :=
  List.foldl_append.symm

/-- One turn of feeding a digest: a single byte, or several at once. -/
inductive Feeding where
  | byte (b : UInt8)
  | chunk (bytes : List UInt8)

def Feeding.bytes : Feeding → List UInt8
  | byte b => [b]
  | chunk bytes => bytes

def feed (d : Digest) : Feeding → Digest
  | .byte b => d.push b
  | .chunk bytes => d.append bytes

def feedAll (d : Digest) (feedings : List Feeding) : Digest := feedings.foldl feed d

theorem feed_eq_append (d : Digest) (f : Feeding) : d.feed f = d.append f.bytes := by
  cases f <;> rfl

/-- How the bytes are grouped leaves no trace. -/
theorem feedAll_eq_append (d : Digest) (feedings : List Feeding) :
    d.feedAll feedings = d.append (feedings.flatMap Feeding.bytes) := by
  induction feedings generalizing d with
  | nil => rfl
  | cons f rest ih =>
    calc d.feedAll (f :: rest)
        = (d.feed f).append (rest.flatMap Feeding.bytes) := ih (d.feed f)
      _ = (d.append f.bytes).append (rest.flatMap Feeding.bytes) := by rw [feed_eq_append]
      _ = d.append ((f :: rest).flatMap Feeding.bytes) := append_append ..

/-- A fresh digest, by either way of making one, ends in the digest of all bytes that it is fed,
which is what the protocol's formula makes of them one by one. -/
theorem the_digest_is_the_same_however_it_is_fed (feedings : List Feeding) :
    let bytes := feedings.flatMap Feeding.bytes
    (start.feedAll feedings).state = ofBytes bytes ∧
      (default : Digest).feedAll feedings = start.feedAll feedings ∧
      ofBytes bytes = bytes.foldl byteStep 0xFFFF := by
  intro bytes
  have hstep : absorb = byteStep := funext₂ absorb_eq_byteStep
  refine ⟨?_, rfl, ?_⟩
  · rw [feedAll_eq_append, ofBytes]
  · rw [ofBytes, state_append, hstep]
    rfl

/-- The check value of the digest, that of the digits from 1 to 9. -/
example : ofBytes [49, 50, 51, 52, 53, 54, 55, 56, 57] = 0x6F91 := by decide +kernel

end MavDialect.Digest
