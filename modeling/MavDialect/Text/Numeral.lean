-- Whole numbers in positional notation: at least one ASCII digit, either case for the letters,
-- and where the caller allows it a sign in front.
-- Law: decimal notation denotes the number that it was made from.

namespace MavDialect.Text

/-- The value of one digit in bases up to sixteen. -/
def digitValue? (base : Nat) (c : Char) : Option Nat :=
  let value? :=
    if '0' ≤ c ∧ c ≤ '9' then some (c.toNat - '0'.toNat)
    else if 'a' ≤ c ∧ c ≤ 'f' then some (c.toNat - 'a'.toNat + 10)
    else if 'A' ≤ c ∧ c ≤ 'F' then some (c.toNat - 'A'.toNat + 10)
    else none
  value?.filter (· < base)

/-- Reads the digits that follow a part with the value `soFar`. -/
def foldDigits? (base soFar : Nat) : List Char → Option Nat
  | [] => some soFar
  | c :: cs => (digitValue? base c).bind fun d => foldDigits? base (soFar * base + d) cs

/-- One or more digits and nothing else. -/
def digits? (base : Nat) : List Char → Option Nat
  | [] => none
  | cs => foldDigits? base 0 cs

/-- Digits after an optional plus sign. -/
def natural? (base : Nat) : List Char → Option Nat
  | '+' :: cs => digits? base cs
  | cs => digits? base cs

/-- Digits after an optional sign. -/
def integer? (base : Nat) : List Char → Option Int
  | '-' :: cs => (digits? base cs).map fun (n : Nat) => -(n : Int)
  | cs => (natural? base cs).map fun (n : Nat) => (n : Int)

/-- A natural number below `2 ^ bits`. -/
def naturalWithin? (bits : Nat) (cs : List Char) : Option Nat :=
  (natural? 10 cs).filter (· < 1 <<< bits)

/-- The number of natural numbers in a signed word of `bits` bits. -/
def signedBound (bits : Nat) : Int := ((1 <<< (bits - 1) : Nat) : Int)

/-- `v` fits a signed word of `bits` bits. -/
def fitsSigned (bits : Nat) (v : Int) : Bool := -signedBound bits ≤ v && v < signedBound bits

theorem fitsSigned_iff {bits : Nat} {v : Int} :
    fitsSigned bits v ↔ -signedBound bits ≤ v ∧ v < signedBound bits := by
  simp [fitsSigned]

/-- An integer that fits a signed word of `bits` bits. -/
def integerWithin? (bits base : Nat) (cs : List Char) : Option Int :=
  (integer? base cs).filter (fitsSigned bits)

/-- The decimal digits of a natural number. -/
def decimalOfNat (n : Nat) : List Char := Nat.toDigits 10 n

/-- The decimal notation of an integer. -/
def decimal : Int → List Char
  | .ofNat n => decimalOfNat n
  | .negSucc n => '-' :: decimalOfNat (n + 1)

def decimalText (n : Int) : String := String.ofList (decimal n)

/-! ## Reading decimal notation -/

theorem digitValue?_digitChar {d : Nat} (h : d < 10) :
    digitValue? 10 (Nat.digitChar d) = some d := by
  have hall : ∀ d : Fin 10, digitValue? 10 (Nat.digitChar d) = some d.val := by decide
  exact hall ⟨d, h⟩

theorem foldDigits?_append (base soFar : Nat) (cs ds : List Char) :
    foldDigits? base soFar (cs ++ ds) =
      (foldDigits? base soFar cs).bind fun n => foldDigits? base n ds := by
  induction cs generalizing soFar with
  | nil => rfl
  | cons c cs ih => simp only [List.cons_append, foldDigits?, ih, Option.bind_assoc]

theorem foldDigits?_decimalOfNat (n : Nat) : foldDigits? 10 0 (decimalOfNat n) = some n := by
  induction n using Nat.strongRecOn with
  | ind n ih =>
    rw [decimalOfNat, Nat.toDigits_eq_if (by decide)]
    split
    · rename_i hlt
      simp [foldDigits?, digitValue?_digitChar hlt]
    · have hlast : n % 10 < 10 := Nat.mod_lt _ (by decide)
      have hfront := ih (n / 10) (by omega)
      rw [decimalOfNat] at hfront
      rw [foldDigits?_append, hfront]
      simp only [Option.bind_some, foldDigits?, digitValue?_digitChar hlast]
      rw [Nat.mul_comm, Nat.div_add_mod]

theorem digits?_decimalOfNat (n : Nat) : digits? 10 (decimalOfNat n) = some n := by
  rw [← foldDigits?_decimalOfNat n]
  cases h : decimalOfNat n with
  | nil => exact absurd h Nat.toDigits_ne_nil
  | cons c cs => rfl

theorem isDigit_of_mem_decimalOfNat {n : Nat} {c : Char} (h : c ∈ decimalOfNat n) :
    c.isDigit = true :=
  Nat.isDigit_of_mem_toDigits (by decide) (by decide) h

/-- Digits without a sign are read as digits. -/
theorem integer?_of_digits {base : Nat} {cs : List Char} (h : ∀ c ∈ cs, c.isDigit = true) :
    integer? base cs = (digits? base cs).map fun (n : Nat) => (n : Int) := by
  have hhead (sign : Char) (hsign : sign.isDigit = false) (rest : List Char) :
      cs ≠ sign :: rest := by
    rintro rfl
    have hdigit := h sign List.mem_cons_self
    rw [hsign] at hdigit
    cases hdigit
  unfold integer?
  split
  · exact absurd rfl (hhead '-' (by decide) _)
  · unfold natural?
    split
    · exact absurd rfl (hhead '+' (by decide) _)
    · rfl

theorem integer?_decimal (n : Int) : integer? 10 (decimal n) = some n := by
  cases n with
  | ofNat n =>
    rw [decimal, integer?_of_digits fun c => isDigit_of_mem_decimalOfNat, digits?_decimalOfNat]
    rfl
  | negSucc n =>
    show (digits? 10 (decimalOfNat (n + 1))).map _ = _
    rw [digits?_decimalOfNat]
    rfl

end MavDialect.Text
