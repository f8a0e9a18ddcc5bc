-- The tokens of JSON text, their spelling, and how the next one is found.
-- Law: a token takes at least one character, so a reader that asks for tokens comes to an end.
import MavDialect.Json.Basic
import MavDialect.Text.Front
import MavDialect.Text.Numeral

namespace MavDialect.Json

inductive Token where
  | openArray
  | closeArray
  | openObject
  | closeObject
  | comma
  | colon
  | scalar (s : Scalar)
  deriving Repr, DecidableEq

/-- Blanks, tabs and line ends, in their ASCII forms only. -/
def isSpace (c : Char) : Bool := c = ' ' || c = '\t' || c = '\n' || c = '\r'

/-! ## Numbers -/

/-- The digits after a point, with the point; nothing when there is no point. -/
def scanFraction? : List Char → Option (List Char × List Char)
  | '.' :: cs =>
    let digits := cs.takeWhile Char.isDigit
    if digits.isEmpty then none else some ('.' :: digits, cs.dropWhile Char.isDigit)
  | cs => some ([], cs)

/-- A plus or minus sign, if there is one. -/
def splitSign : List Char → List Char × List Char
  | '+' :: cs => (['+'], cs)
  | '-' :: cs => (['-'], cs)
  | cs => ([], cs)

/-- The exponent with its letter; nothing when there is no letter. -/
def scanExponent? : List Char → Option (List Char × List Char)
  | [] => some ([], [])
  | c :: cs =>
    if c = 'e' ∨ c = 'E' then
      let (sign, rest) := splitSign cs
      let digits := rest.takeWhile Char.isDigit
      if digits.isEmpty then none
      else some (c :: sign ++ digits, rest.dropWhile Char.isDigit)
    else some ([], c :: cs)

/-- One or more digits, the first of which is 0 only when it stands alone. -/
def isWhole : List Char → Bool
  | [] => false
  | ['0'] => true
  | c :: _ => c ≠ '0'

/-- The value of a number by its parts: an integer when it has neither fraction nor exponent
and is not a negative zero. -/
def numberOf? (negative : Bool) (whole fraction exponent : List Char) : Option Scalar :=
  let literal := (if negative then ['-'] else []) ++ whole ++ fraction ++ exponent
  if fraction.isEmpty && exponent.isEmpty && literal ≠ ['-', '0'] then
    (Text.digits? 10 whole).map fun (n : Nat) => .int (if negative then -n else n)
  else some (.decimal literal)

/-- A number without its sign: whole digits, then perhaps a fraction and an exponent. -/
def scanUnsigned? (negative : Bool) (cs : List Char) : Option (Scalar × List Char) :=
  let whole := cs.takeWhile Char.isDigit
  if isWhole whole then
    (scanFraction? (cs.dropWhile Char.isDigit)).bind fun (fraction, rest) =>
      (scanExponent? rest).bind fun (exponent, rest) =>
        (numberOf? negative whole fraction exponent).map (·, rest)
  else none

/-! ## Strings -/

/-- What one character or escape of a string literal contributes. -/
inductive Piece where
  | char (c : Char)
  | surrogate (unit : Nat)
  deriving Repr, DecidableEq

/-- The escapes of one letter. -/
def plainEscape? : Char → Option Char
  | '"' => some '"'
  | '\\' => some '\\'
  | '/' => some '/'
  | 'b' => some '\x08'
  | 'f' => some '\x0c'
  | 'n' => some '\n'
  | 'r' => some '\r'
  | 't' => some '\t'
  | _ => none

def isSurrogate (unit : Nat) : Bool := 0xD800 ≤ unit && unit ≤ 0xDFFF

/-- The four hexadecimal digits of an escape. -/
def unitEscape? (digits : List Char) : Option Piece :=
  (Text.digits? 16 digits).map fun unit =>
    if isSurrogate unit then .surrogate unit else .char (Char.ofNat unit)

/-- The pieces up to the closing quote, and what follows it.  Control characters must be
escaped. -/
def scanString? : List Char → Option (List Piece × List Char)
  | [] => none
  | '"' :: rest => some ([], rest)
  | '\\' :: 'u' :: a :: b :: c :: d :: rest =>
    match unitEscape? [a, b, c, d], scanString? rest with
    | some piece, some (pieces, after) => some (piece :: pieces, after)
    | _, _ => none
  | '\\' :: e :: rest =>
    match plainEscape? e, scanString? rest with
    | some c, some (pieces, after) => some (.char c :: pieces, after)
    | _, _ => none
  | c :: rest =>
    if c < ' ' ∨ c = '\\' then none
    else
      match scanString? rest with
      | some (pieces, after) => some (.char c :: pieces, after)
      | none => none

/-- Joins each high surrogate with the low one after it.  Any other surrogate denotes no text. -/
def joinPieces? : List Piece → Option (List Char)
  | [] => some []
  | .char c :: rest => (joinPieces? rest).map (c :: ·)
  | .surrogate high :: .surrogate low :: rest =>
    if high < 0xDC00 ∧ 0xDC00 ≤ low then
      (joinPieces? rest).map
        (Char.ofNat (0x10000 + (high - 0xD800) * 0x400 + (low - 0xDC00)) :: ·)
    else none
  | .surrogate _ :: _ => none

/-! ## One token -/

/-- The keyword whose first letter was seen. -/
def scanKeyword? (letters : String) (s : Scalar) (cs : List Char) : Option (Token × List Char) :=
  (Text.dropFront? letters.toList cs).map fun rest => (.scalar s, rest)

/-- The token that starts with `c`, and what follows it. -/
def scanToken? (c : Char) (cs : List Char) : Option (Token × List Char) :=
  match c with
  | '[' => some (.openArray, cs)
  | ']' => some (.closeArray, cs)
  | '{' => some (.openObject, cs)
  | '}' => some (.closeObject, cs)
  | ',' => some (.comma, cs)
  | ':' => some (.colon, cs)
  | '"' => (scanString? cs).map fun (pieces, rest) =>
      (.scalar (.string ((joinPieces? pieces).map String.ofList)), rest)
  | 'n' => scanKeyword? "ull" .null cs
  | 't' => scanKeyword? "rue" (.bool true) cs
  | 'f' => scanKeyword? "alse" (.bool false) cs
  | '-' => (scanUnsigned? true cs).map fun (s, rest) => (.scalar s, rest)
  | c => (scanUnsigned? false (c :: cs)).map fun (s, rest) => (.scalar s, rest)

/-! ## Every token takes a character -/

theorem length_dropWhile_le (p : Char → Bool) (cs : List Char) :
    (cs.dropWhile p).length ≤ cs.length := (List.dropWhile_sublist p).length_le

theorem scanFraction?_length {cs fraction rest : List Char}
    (h : scanFraction? cs = some (fraction, rest)) : rest.length ≤ cs.length := by
  unfold scanFraction? at h
  split at h
  · rename_i cs
    have := length_dropWhile_le Char.isDigit cs
    simp only [Option.ite_none_left_eq_some, Option.some.injEq, Prod.mk.injEq] at h
    simp only [List.length_cons, ← h.2.2]
    omega
  · simp only [Option.some.injEq, Prod.mk.injEq] at h
    simp [h.2]

theorem splitSign_length (cs : List Char) : (splitSign cs).2.length ≤ cs.length := by
  unfold splitSign
  split <;> simp

theorem scanExponent?_length {cs exponent rest : List Char}
    (h : scanExponent? cs = some (exponent, rest)) : rest.length ≤ cs.length := by
  unfold scanExponent? at h
  split at h
  · simp only [Option.some.injEq, Prod.mk.injEq] at h
    simp [← h.2]
  · rename_i c cs
    split at h
    · have hsign := splitSign_length cs
      have hdrop := length_dropWhile_le Char.isDigit (splitSign cs).2
      simp only [Option.ite_none_left_eq_some, Option.some.injEq, Prod.mk.injEq] at h
      simp only [List.length_cons, ← h.2.2]
      omega
    · simp only [Option.some.injEq, Prod.mk.injEq] at h
      simp [← h.2]

theorem scanUnsigned?_length {negative : Bool} {cs rest : List Char} {s : Scalar}
    (h : scanUnsigned? negative cs = some (s, rest)) : rest.length < cs.length := by
  have hlen : (cs.dropWhile Char.isDigit).length + (cs.takeWhile Char.isDigit).length =
      cs.length := by
    rw [Nat.add_comm, ← List.length_append, List.takeWhile_append_dropWhile]
  simp only [scanUnsigned?] at h
  split at h
  · rename_i hwhole
    have hpos : 0 < (cs.takeWhile Char.isDigit).length := by
      cases hw : cs.takeWhile Char.isDigit with
      | nil => simp [hw, isWhole] at hwhole
      | cons => simp
    obtain ⟨⟨fraction, afterFraction⟩, hfraction, h⟩ := Option.bind_eq_some_iff.1 h
    obtain ⟨⟨exponent, afterExponent⟩, hexponent, h⟩ := Option.bind_eq_some_iff.1 h
    have h1 := scanFraction?_length hfraction
    have h2 := scanExponent?_length hexponent
    obtain ⟨_, -, h⟩ := Option.map_eq_some_iff.1 h
    have hrest : afterExponent = rest := (Prod.mk.inj h).2
    simp only at h1 hexponent h2
    subst hrest
    omega
  · simp at h

theorem scanString?_length {cs rest : List Char} {pieces : List Piece}
    (h : scanString? cs = some (pieces, rest)) : rest.length ≤ cs.length := by
  fun_induction scanString? cs generalizing pieces rest <;> grind [List.length_cons]

theorem scanKeyword?_length {letters : String} {s : Scalar} {cs rest : List Char} {t : Token}
    (h : scanKeyword? letters s cs = some (t, rest)) : rest.length ≤ cs.length := by
  obtain ⟨tail, htail, h⟩ := Option.map_eq_some_iff.1 h
  rw [Text.dropFront?_eq_some_iff] at htail
  have : tail = rest := (Prod.mk.inj h).2
  simp [htail, this]

theorem scanToken?_length {c : Char} {cs rest : List Char} {t : Token}
    (h : scanToken? c cs = some (t, rest)) : rest.length ≤ cs.length := by
  have number {negative : Bool} {ds : List Char}
      (h : (scanUnsigned? negative ds).map (fun (s, rest) => (Token.scalar s, rest)) =
        some (t, rest)) : rest.length < ds.length := by
    obtain ⟨⟨s, tail⟩, hs, h⟩ := Option.map_eq_some_iff.1 h
    have : tail = rest := (Prod.mk.inj h).2
    exact this ▸ scanUnsigned?_length hs
  unfold scanToken? at h
  split at h
  case h_7 =>
    obtain ⟨⟨pieces, tail⟩, hs, h⟩ := Option.map_eq_some_iff.1 h
    have : tail = rest := (Prod.mk.inj h).2
    exact this ▸ scanString?_length hs
  case h_8 => exact scanKeyword?_length h
  case h_9 => exact scanKeyword?_length h
  case h_10 => exact scanKeyword?_length h
  case h_11 => exact Nat.le_of_lt (number h)
  case h_12 => exact Nat.le_of_lt_succ (number h)
  all_goals
    simp only [Option.some.injEq, Prod.mk.injEq] at h
    simp [h.2]

end MavDialect.Json
