-- Reading the input of the fingerprint back.  Names end at their blank.  A length has no mark of
-- its own: it is told from the next type by that type's name, and one byte only can be taken for
-- the start of a name, the `u` that makes an unsigned type of a signed one.
import MavDialect.Proofs.FingerprintScope

namespace MavDialect

/-! ## Texts as bytes -/

namespace Text

theorem utf8_inj {s t : String} (h : utf8 s = utf8 t) : s = t := by
  apply String.toByteArray_inj.1
  calc s.toByteArray = s.toList.utf8Encode := String.utf8Encode_toList.symm
    _ = t.toList.utf8Encode := congrArg List.toByteArray h
    _ = t.toByteArray := String.utf8Encode_toList

/-- No other character has the byte of a blank in its encoding. -/
theorem eq_blank_of_mem_encode {c : Char} (h : 32 ∈ String.utf8EncodeChar c) : c = ' ' := by
  revert h
  fun_cases String.utf8EncodeChar c with
  | case1 v hv =>
    intro h
    have hbyte := congrArg UInt8.toNat (List.mem_singleton.1 h)
    rw [UInt8.toNat_ofNat', Nat.mod_eq_of_lt (by omega)] at hbyte
    exact Char.ext (UInt32.toNat_inj.1 hbyte.symm)
  -- all bytes of a longer encoding have their highest bit set
  | case2 v _ _ =>
    intro h
    simp only [List.mem_cons, List.not_mem_nil, or_false] at h
    rcases h with h | h <;> have := congrArg UInt8.toNat h <;> simp at this <;> omega
  | case3 v _ _ _ =>
    intro h
    simp only [List.mem_cons, List.not_mem_nil, or_false] at h
    rcases h with h | h | h <;> have := congrArg UInt8.toNat h <;> simp at this <;> omega
  | case4 v _ _ _ =>
    intro h
    simp only [List.mem_cons, List.not_mem_nil, or_false] at h
    rcases h with h | h | h | h <;> have := congrArg UInt8.toNat h <;> simp at this <;> omega

theorem blank_not_mem_utf8 {s : String} (h : ' ' ∉ s.toList) : 32 ∉ utf8 s := by
  intro hmem
  obtain ⟨c, hc, hbyte⟩ := List.mem_flatMap.1 hmem
  exact h (eq_blank_of_mem_encode hbyte ▸ hc)

/-- Two texts of bytes that end at the same blank are equal, and so is what follows. -/
theorem split_at_blank {a b x y : List UInt8} (ha : 32 ∉ a) (hb : 32 ∉ b)
    (h : a ++ 32 :: x = b ++ 32 :: y) : a = b ∧ x = y := by
  induction a generalizing b with
  | nil =>
    cases b with
    | nil => exact ⟨rfl, (List.cons.inj h).2⟩
    | cons c b => exact absurd (List.cons.inj h).1 fun hc => hb (hc ▸ List.mem_cons_self)
  | cons c a ih =>
    cases b with
    | nil => exact absurd (List.cons.inj h).1 fun hc => ha (hc ▸ List.mem_cons_self)
    | cons d b =>
      obtain ⟨rfl, hrest⟩ := List.cons.inj h
      obtain ⟨rfl, rfl⟩ := ih (fun hc => ha (List.mem_cons_of_mem _ hc))
        (fun hc => hb (List.mem_cons_of_mem _ hc)) hrest
      exact ⟨rfl, rfl⟩

end Text

namespace Fingerprint

/-! ## The names of types -/

theorem blank_not_mem_typeName (p : Primitive) : 32 ∉ Text.utf8 p.fingerprintName := by
  cases p <;> decide

theorem typeName_ne_nil (p : Primitive) : Text.utf8 p.fingerprintName ≠ [] := by
  cases p <;> decide

/-- The name of a type is that of another after one more byte, only when the byte is `u`. -/
theorem eq_u_of_typeName {p q : Primitive} {b : UInt8}
    (h : Text.utf8 p.fingerprintName = b :: Text.utf8 q.fingerprintName) : b = 117 := by
  have hnames : ∀ p q : Primitive,
      (Text.utf8 p.fingerprintName).tail = Text.utf8 q.fingerprintName →
        (Text.utf8 p.fingerprintName).head? = some 117 := by
    intro p q
    cases p <;> cases q <;> decide
  have hhead := hnames p q (by rw [h]; rfl)
  rw [h] at hhead
  exact Option.some.inj hhead

/-! ## Reading signatures -/

/-- A signature that can be read back: its name has no blank, and its length fits a byte other
than `u`. -/
structure Readable (s : String × String × Option Nat) : Prop where
  type : ∃ p : Primitive, s.1 = p.fingerprintName
  name : ' ' ∉ s.2.1.toList
  length : ∀ n ∈ s.2.2, n ≤ maxArrayLength ∧ n ≠ 117

theorem Readable.blank_not_mem_type {s : String × String × Option Nat} (h : Readable s) :
    32 ∉ Text.utf8 s.1 := by
  obtain ⟨p, hp⟩ := h.type
  rw [hp]
  exact blank_not_mem_typeName p

/-- The length byte of an array stands for its length. -/
theorem toNat_lengthByte {n : Nat} (h : n ≤ maxArrayLength) : (UInt8.ofNat n).toNat = n := by
  unfold maxArrayLength at h
  rw [UInt8.toNat_ofNat', Nat.mod_eq_of_lt (by omega)]

theorem Readable.lengthByte_ne {s : String × String × Option Nat} (h : Readable s) {n : Nat}
    (hn : s.2.2 = some n) : UInt8.ofNat n ≠ 117 := by
  obtain ⟨hle, hne⟩ := h.length n hn
  intro hbyte
  have := toNat_lengthByte hle
  rw [hbyte] at this
  exact hne this.symm

theorem flatMap_signatureBytes_cons (s : String × String × Option Nat)
    (l : List (String × String × Option Nat)) :
    (s :: l).flatMap signatureBytes = Text.utf8 s.1 ++ 32 :: (Text.utf8 s.2.1 ++
      32 :: (s.2.2.toList.map UInt8.ofNat ++ l.flatMap signatureBytes)) := by
  simp [signatureBytes]

/-- A byte before some signatures makes other signatures of them, only when it is `u`. -/
theorem eq_u_of_stray_byte {l r : List (String × String × Option Nat)} {b : UInt8}
    (hl : ∀ s ∈ l, Readable s) (hr : ∀ s ∈ r, Readable s)
    (h : b :: l.flatMap signatureBytes = r.flatMap signatureBytes) : b = 117 := by
  cases r with
  | nil => cases h
  | cons t r =>
    have ht := hr t List.mem_cons_self
    obtain ⟨p, hp⟩ := ht.type
    rw [flatMap_signatureBytes_cons] at h
    cases l with
    | nil =>
      -- a single byte cannot hold a name and a blank
      have hlength := congrArg List.length h
      have hpos := List.length_pos_of_ne_nil (typeName_ne_nil p)
      rw [← hp] at hpos
      simp only [List.flatMap_nil, List.length_cons, List.length_nil, List.length_append] at hlength
      omega
    | cons s l =>
      have hs := hl s List.mem_cons_self
      obtain ⟨q, hq⟩ := hs.type
      have hb : b ≠ 32 := by
        rintro rfl
        have hhead := congrArg List.head? h
        rw [hp, List.head?_append_of_ne_nil _ (typeName_ne_nil p)] at hhead
        exact blank_not_mem_typeName p (List.mem_of_mem_head? hhead.symm)
      rw [flatMap_signatureBytes_cons, ← List.cons_append] at h
      have hblank : 32 ∉ b :: Text.utf8 s.1 := by
        rw [List.mem_cons, not_or]
        exact ⟨hb.symm, hs.blank_not_mem_type⟩
      have hname := (Text.split_at_blank hblank ht.blank_not_mem_type h).1
      rw [hp, hq] at hname
      exact eq_u_of_typeName hname.symm

/-- Signatures that can be read back are fixed by their bytes. -/
theorem signatures_eq_of_bytes_eq {l r : List (String × String × Option Nat)}
    (hl : ∀ s ∈ l, Readable s) (hr : ∀ s ∈ r, Readable s)
    (h : l.flatMap signatureBytes = r.flatMap signatureBytes) : l = r := by
  induction l generalizing r with
  | nil =>
    cases r with
    | nil => rfl
    | cons t r =>
      rw [flatMap_signatureBytes_cons] at h
      simp at h
  | cons s l ih =>
    cases r with
    | nil =>
      rw [flatMap_signatureBytes_cons] at h
      simp at h
    | cons t r =>
      obtain ⟨hs, hrestl⟩ := List.forall_mem_cons.1 hl
      obtain ⟨ht, hrestr⟩ := List.forall_mem_cons.1 hr
      rw [flatMap_signatureBytes_cons, flatMap_signatureBytes_cons] at h
      obtain ⟨htype, h⟩ := Text.split_at_blank hs.blank_not_mem_type ht.blank_not_mem_type h
      obtain ⟨hname, h⟩ := Text.split_at_blank (Text.blank_not_mem_utf8 hs.name)
        (Text.blank_not_mem_utf8 ht.name) h
      obtain ⟨stype, sname, slength⟩ := s
      obtain ⟨ttype, tname, tlength⟩ := t
      cases Text.utf8_inj htype
      cases Text.utf8_inj hname
      rcases slength with _ | m <;> rcases tlength with _ | n
      · rw [ih hrestl hrestr h]
      · exact absurd (eq_u_of_stray_byte hrestr hrestl h.symm) (ht.lengthByte_ne rfl)
      · exact absurd (eq_u_of_stray_byte hrestl hrestr h) (hs.lengthByte_ne rfl)
      · obtain ⟨hbyte, h⟩ := List.cons.inj h
        have hlength := congrArg UInt8.toNat hbyte
        rw [toNat_lengthByte (hs.length m rfl).1, toNat_lengthByte (ht.length n rfl).1] at hlength
        rw [ih hrestl hrestr h, hlength]

/-! ## Reading the input -/

/-- A message whose input can be read back: its fields are built ones, no name in the input has a
blank, and no base array has length 117. -/
structure Legible (sourceName : String) (fields : List Field) : Prop where
  built : ∀ f ∈ fields, f.Built
  name : ' ' ∉ sourceName.toList
  fieldNames : ∀ f ∈ fields, f.isExtension = false → ' ' ∉ f.sourceName.toList
  lengths : ∀ f ∈ fields, f.isExtension = false → f.arrayLength ≠ some 117

theorem Legible.readable {sourceName : String} {fields : List Field}
    (h : Legible sourceName fields) :
    ∀ s ∈ (Layout.wireBaseFields fields).map signature, Readable s := by
  intro s hs
  obtain ⟨f, hf, rfl⟩ := List.mem_map.1 hs
  have hbase := List.mem_filter.1 ((Layout.wireBaseFields_perm fields).mem_iff.1 hf)
  have hext : f.isExtension = false := by simpa using hbase.2
  refine ⟨⟨f.elementType, rfl⟩, h.fieldNames f hbase.1 hext, fun n hn => ⟨?_, ?_⟩⟩
  · exact (h.built f hbase.1).length_le n hn
  · rintro rfl
    exact h.lengths f hbase.1 hext hn

/-- The input of the fingerprint tells the name of the message and the signatures of its base
fields in payload order.  The length byte of a field is its length.  The bound on lengths is
needed: with length 117, two declarations give one input. -/
theorem the_input_can_be_read_back :
    (∀ sourceName otherName fields others, Legible sourceName fields → Legible otherName others →
      input sourceName fields = input otherName others →
        sourceName = otherName ∧
        (Layout.wireBaseFields fields).map signature =
          (Layout.wireBaseFields others).map signature) ∧
    (∀ f : Field, f.Built → ∀ n ∈ f.arrayLength, (UInt8.ofNat n).toNat = n) ∧
    ∃ wide signed narrow unsigned : Field,
      Field.declare "x" "uint8_t[117]" = .ok wide ∧ Field.declare "y" "int8_t" = .ok signed ∧
      Field.declare "x" "uint8_t" = .ok narrow ∧ Field.declare "y" "uint8_t" = .ok unsigned ∧
      (Layout.wireBaseFields [wide, signed]).map signature ≠
        (Layout.wireBaseFields [narrow, unsigned]).map signature ∧
      ∀ sourceName, input sourceName [wide, signed] = input sourceName [narrow, unsigned] := by
  refine ⟨?_, fun f hf n hn => toNat_lengthByte (hf.length_le n hn), ?_⟩
  · intro sourceName otherName fields others hl hr h
    rw [input_eq, input_eq] at h
    obtain ⟨hname, h⟩ := Text.split_at_blank (Text.blank_not_mem_utf8 hl.name)
      (Text.blank_not_mem_utf8 hr.name) h
    exact ⟨Text.utf8_inj hname, signatures_eq_of_bytes_eq hl.readable hr.readable h⟩
  · exact ⟨_, _, _, _, rfl, rfl, rfl, rfl, by decide, fun _ => rfl⟩

/-- A length byte that is the letter `i` is not taken for the start of `int8_t`. -/
theorem an_array_of_length_105_is_read_back :
    let text := Field.ofType "text" "char[105]" ⟨.char, some 105, by decide⟩
    let kind := Field.scalar "kind" .int8
    let time := Field.scalar "time" .uint64
    let extra := { Field.scalar "free text" .float with isExtension := true }
    (Legible "PING" [text, time, kind] ∧ Legible "PING" [extra, text, kind, time] ∧
      input "PING" [text, time, kind] = input "PING" [extra, text, kind, time] ∧
      (Layout.wireBaseFields [text, time, kind]).map signature =
        (Layout.wireBaseFields [extra, text, kind, time]).map signature) ∧
    text.Built ∧ (UInt8.ofNat 105).toNat = 105 := by
  intro text kind time extra
  obtain ⟨reading, lengths, _⟩ := the_input_can_be_read_back
  have htext : text.Built := .declare "text" "char[105]" rfl
  have hkind : kind.Built := Field.built_scalar "kind" .int8
  have htime : time.Built := Field.built_scalar "time" .uint64
  have hextra : extra.Built := (Field.built_scalar "free text" .float).extension true
  have hl : Legible "PING" [text, time, kind] := by
    refine ⟨?_, by decide, by decide, by decide⟩
    exact List.forall_mem_cons.2 ⟨htext, List.forall_mem_cons.2 ⟨htime,
      List.forall_mem_singleton.2 hkind⟩⟩
  have hr : Legible "PING" [extra, text, kind, time] := by
    refine ⟨?_, by decide, by decide, by decide⟩
    exact List.forall_mem_cons.2 ⟨hextra, List.forall_mem_cons.2 ⟨htext, List.forall_mem_cons.2
      ⟨hkind, List.forall_mem_singleton.2 htime⟩⟩⟩
  have hinput : input "PING" [text, time, kind] = input "PING" [extra, text, kind, time] := rfl
  exact ⟨⟨hl, hr, hinput, (reading _ _ _ _ hl hr hinput).2⟩, htext, lengths text htext 105 rfl⟩

end Fingerprint

end MavDialect
