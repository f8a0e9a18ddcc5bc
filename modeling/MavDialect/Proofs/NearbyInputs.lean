-- Which inputs the digest tells apart.  The register forgets nothing: no shift makes one state of
-- two, so digests that differ stay different whatever both are fed.  Two bytes in a row enter like
-- one word as wide as the register, so from any state each pair of bytes leads elsewhere.
import MavDialect.Proofs.DigestFeeding

namespace MavDialect.Digest

/-! ## No two states become one -/

/-- No state but zero leads to zero. -/
theorem eq_zero_of_shift_eq_zero {crc : UInt16} (h : shift crc = 0) : crc = 0 := by
  have hlt := crc.toNat_lt
  by_cases heven : crc.toNat % 2 = 0
  · have hhalf : crc.toNat / 2 = 0 := by
      rw [← toNat_shift_of_even crc heven, h]
      rfl
    rw [← UInt16.toNat_inj, UInt16.toNat_zero]
    omega
  · -- what moved down would be the polynomial, whose highest bit no state that moved down has set
    have hset : crc &&& 1 = 1 := by
      rw [low_bit_iff]
      omega
    rw [shift, if_pos hset, UInt16.xor_eq_zero_iff] at h
    have hhalf : crc.toNat / 2 = 0x8408 := by
      rw [← toNat_halved, h]
      rfl
    omega

theorem shift_injective : Function.Injective shift := by
  intro a b h
  have hdifference : shift (a ^^^ b) = 0 := by rw [shift_xor, h, UInt16.xor_self]
  exact UInt16.xor_eq_zero_iff.1 (eq_zero_of_shift_eq_zero hdifference)

theorem shiftBits_injective (n : Nat) : Function.Injective (shiftBits n) := by
  induction n with
  | zero => exact fun _ _ h => h
  | succ n ih => exact ih.comp shift_injective

theorem absorb_left_inj {crc other : UInt16} (byte : UInt8) :
    absorb crc byte = absorb other byte ↔ crc = other := by
  rw [absorb, absorb, (shiftBits_injective 8).eq_iff, UInt16.xor_left_inj]

theorem absorb_right_inj (crc : UInt16) {a b : UInt8} :
    absorb crc a = absorb crc b ↔ a = b := by
  rw [absorb, absorb, (shiftBits_injective 8).eq_iff, UInt16.xor_right_inj, UInt8.toUInt16_inj]

/-- What both are fed neither joins two states nor parts them. -/
theorem foldl_absorb_inj (bytes : List UInt8) {crc other : UInt16} :
    bytes.foldl absorb crc = bytes.foldl absorb other ↔ crc = other := by
  induction bytes generalizing crc other with
  | nil => rfl
  | cons byte rest ih => rw [List.foldl_cons, List.foldl_cons, ih, absorb_left_inj]

theorem ofBytes_append (bytes more : List UInt8) :
    ofBytes (bytes ++ more) = more.foldl absorb (ofBytes bytes) := by
  rw [ofBytes, ← append_append, state_append, ofBytes]

/-! ## Two bytes in a row -/

/-- A byte at the top of the register. -/
def raised (byte : UInt8) : UInt16 := byte.toUInt16 <<< 8

/-- Two bytes as one word, the first one low. -/
def word (low high : UInt8) : UInt16 := low.toUInt16 ^^^ raised high

theorem toNat_raised (byte : UInt8) : (raised byte).toNat = byte.toNat * 2 ^ 8 := by
  have hlt := byte.toNat_lt
  rw [raised, UInt16.toNat_shiftLeft, UInt8.toNat_toUInt16]
  show byte.toNat <<< 8 % 2 ^ 16 = _
  rw [Nat.shiftLeft_eq, Nat.mod_eq_of_lt (by omega)]

theorem raised_shiftRight (byte : UInt8) : raised byte >>> 8 = byte.toUInt16 := by
  rw [← UInt16.toNat_inj, UInt16.toNat_shiftRight, toNat_raised, UInt8.toNat_toUInt16]
  show (byte.toNat * 2 ^ 8) >>> 8 = _
  rw [Nat.shiftRight_eq_div_pow, Nat.mul_div_cancel _ (Nat.two_pow_pos 8)]

/-- In eight shifts a byte comes down from the top of the register as it is. -/
theorem shiftBits_raised (byte : UInt8) : shiftBits 8 (raised byte) = byte.toUInt16 := by
  have hclear : (raised byte).toNat % 2 ^ 8 = 0 := by rw [toNat_raised, Nat.mul_mod_left]
  rw [← UInt16.toNat_inj, toNat_shiftBits_of_clear hclear, toNat_raised,
    Nat.mul_div_cancel _ (Nat.two_pow_pos 8), UInt8.toNat_toUInt16]

theorem word_inj {a b c d : UInt8} : word a b = word c d ↔ a = c ∧ b = d := by
  constructor
  · intro h
    have hhigh : b = d := by
      have hdown := congrArg (fun w : UInt16 => w >>> 8) h
      simpa only [word, UInt16.shiftRight_xor, toUInt16_shiftRight, UInt16.zero_xor,
        raised_shiftRight, UInt8.toUInt16_inj] using hdown
    subst hhigh
    rw [word, word, UInt16.xor_left_inj, UInt8.toUInt16_inj] at h
    exact ⟨h, rfl⟩
  · rintro ⟨rfl, rfl⟩
    rfl

theorem shiftBits_add (m n : Nat) (crc : UInt16) :
    shiftBits (m + n) crc = shiftBits n (shiftBits m crc) := by
  induction m generalizing crc with
  | zero => rw [Nat.zero_add, shiftBits]
  | succ m ih => rw [Nat.succ_add, shiftBits, ih, shiftBits]

/-- Two bytes in a row enter like one word of sixteen bits: while the first one leaves, the second
comes down to where it enters. -/
theorem absorb_absorb (crc : UInt16) (a b : UInt8) :
    absorb (absorb crc a) b = shiftBits 16 (crc ^^^ word a b) := by
  calc absorb (absorb crc a) b
      = shiftBits 8 (shiftBits 8 (crc ^^^ a.toUInt16) ^^^ shiftBits 8 (raised b)) := by
        rw [shiftBits_raised, absorb, absorb]
    _ = shiftBits 8 (shiftBits 8 (crc ^^^ word a b)) := by
        rw [← shiftBits_xor, UInt16.xor_assoc, word]
    _ = shiftBits 16 (crc ^^^ word a b) := (shiftBits_add 8 8 _).symm

theorem absorb_absorb_inj (crc : UInt16) {a b c d : UInt8} :
    absorb (absorb crc a) b = absorb (absorb crc c) d ↔ a = c ∧ b = d := by
  rw [absorb_absorb, absorb_absorb, (shiftBits_injective 16).eq_iff, UInt16.xor_right_inj,
    word_inj]

/-! ## Inputs that are nearly the same -/

/-- Inputs of one length that agree everywhere but at `place` and at the place after it. -/
structure AlikeBut (place : Nat) (bytes others : List UInt8) : Prop where
  length_eq : bytes.length = others.length
  getElem?_eq : ∀ i, i ≠ place → i ≠ place + 1 → bytes[i]? = others[i]?

theorem AlikeBut.tail {place : Nat} {a b : UInt8} {bytes others : List UInt8}
    (h : AlikeBut (place + 1) (a :: bytes) (b :: others)) :
    a = b ∧ AlikeBut place bytes others := by
  refine ⟨?_, Nat.succ.inj h.length_eq, fun i hi hnext => ?_⟩
  · exact Option.some.inj (h.getElem?_eq 0 (by omega) (by omega))
  · exact h.getElem?_eq (i + 1) (by omega) (by omega)

theorem AlikeBut.rest {a b c d : UInt8} {bytes others : List UInt8}
    (h : AlikeBut 0 (a :: b :: bytes) (c :: d :: others)) : bytes = others :=
  List.ext_getElem? fun i => h.getElem?_eq (i + 2) (by omega) (by omega)

/-- From any state, nearly the same inputs end in one state only if they are the same. -/
theorem AlikeBut.eq_of_foldl_eq {place : Nat} {bytes others : List UInt8}
    (h : AlikeBut place bytes others) {crc : UInt16}
    (hsame : bytes.foldl absorb crc = others.foldl absorb crc) : bytes = others := by
  induction place generalizing bytes others crc with
  | zero =>
    match bytes, others, h.length_eq with
    | [], [], _ => rfl
    | [a], [c], _ =>
      have hstep : absorb crc a = absorb crc c := hsame
      rw [(absorb_right_inj crc).1 hstep]
    | a :: b :: rest, c :: d :: others, _ =>
      obtain rfl := h.rest
      have hpair : absorb (absorb crc a) b = absorb (absorb crc c) d :=
        (foldl_absorb_inj rest).1 hsame
      obtain ⟨rfl, rfl⟩ := (absorb_absorb_inj crc).1 hpair
      rfl
  | succ place ih =>
    match bytes, others, h.length_eq with
    | [], [], _ => rfl
    | a :: rest, b :: others, _ =>
      obtain ⟨rfl, htail⟩ := h.tail
      rw [ih htail hsame]

/-- Inputs of one length that differ, but only in two neighbouring places, have different digests,
however long they are; and digests that differ stay different when the same bytes follow. -/
theorem nearby_inputs_are_told_apart :
    (∀ (place : Nat) (bytes others : List UInt8), AlikeBut place bytes others → bytes ≠ others →
      ofBytes bytes ≠ ofBytes others) ∧
    ∀ bytes others more : List UInt8, ofBytes bytes ≠ ofBytes others →
      ofBytes (bytes ++ more) ≠ ofBytes (others ++ more) := by
  constructor
  · intro place bytes others halike hne hsame
    rw [ofBytes, ofBytes, state_append, state_append] at hsame
    exact hne (halike.eq_of_foldl_eq hsame)
  · intro bytes others more hne hsame
    rw [ofBytes_append, ofBytes_append, foldl_absorb_inj] at hsame
    exact hne hsame

/-- Two neighbouring bytes change places; then the same bytes follow inputs of different
lengths. -/
theorem a_change_of_places_is_seen :
    AlikeBut 1 [70, 1, 2, 9] [70, 2, 1, 9] ∧ ofBytes [70, 1, 2, 9] ≠ ofBytes [70, 2, 1, 9] ∧
      ofBytes [70] ≠ ofBytes [70, 1] ∧ ofBytes [70, 2, 9] ≠ ofBytes [70, 1, 2, 9] := by
  obtain ⟨hnear, hmore⟩ := nearby_inputs_are_told_apart
  have halike : AlikeBut 1 [70, 1, 2, 9] [70, 2, 1, 9] := by
    refine ⟨rfl, fun i hi hnext => ?_⟩
    match i with
    | 0 | 3 => rfl
    | 1 | 2 => contradiction
    | i + 4 => rfl
  have hshort : ofBytes [70] ≠ ofBytes [70, 1] := by decide +kernel
  exact ⟨halike, hnear 1 _ _ halike (by decide), hshort, hmore [70] [70, 1] [2, 9] hshort⟩

end MavDialect.Digest
