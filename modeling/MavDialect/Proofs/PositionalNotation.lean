-- What the readers of whole numbers accept: one or more digits of the base, letters in either case,
-- and a sign in front where one is allowed.  A run of digits denotes the sum of its digits, each
-- times its power of the base, so it may be of any length and may start with zeros.
import MavDialect.Text.Numeral
import Mathlib.Data.List.Forall2
import Mathlib.Data.Nat.Digits.Defs
import Mathlib.Tactic.Ring

namespace MavDialect.Text

variable {base n d : Nat} {c : Char} {cs : List Char} {v : Int}

/-! ## One digit -/

/-- `c` is the digit for `d`.  From ten on the digits are letters, of either case. -/
def IsDigitFor (base : Nat) (c : Char) (d : Nat) : Prop :=
  d < base ∧ (c = Nat.digitChar d ∨ c = (Nat.digitChar d).toUpper)

/-- The greatest base that has a letter for each of its digits. -/
def greatestBase : Nat := 16

theorem digitValue?_eq_some_iff_lt (hbase : base ≤ greatestBase) :
    digitValue? base c = some d ↔ digitValue? greatestBase c = some d ∧ d < base := by
  unfold digitValue?
  simp only [Option.filter_eq_some_iff, decide_eq_true_eq]
  constructor
  · rintro ⟨h, hlt⟩
    exact ⟨⟨h, Nat.lt_of_lt_of_le hlt hbase⟩, hlt⟩
  · rintro ⟨⟨h, _⟩, hlt⟩
    exact ⟨h, hlt⟩

/-- In a run of characters with consecutive code points, the distance to the first says which one
it is. -/
theorem eq_of_run (run : Nat → Char) (count : Nat) {first : Nat}
    (hrun : ∀ k : Fin count, (run k).toNat = first + k) (hlo : first ≤ c.toNat)
    (hhi : c.toNat < first + count) : c = run (c.toNat - first) := by
  have hk := hrun ⟨c.toNat - first, by omega⟩
  apply Char.toNat_inj.1
  dsimp only at hk
  omega

theorem isDigitFor_of_digitValue? (h : digitValue? greatestBase c = some d) :
    IsDigitFor greatestBase c d := by
  unfold digitValue? at h
  obtain ⟨h, hlt⟩ := Option.filter_eq_some_iff.1 h
  refine ⟨by simpa using hlt, ?_⟩
  split at h
  · rename_i hrange
    cases h
    left
    exact eq_of_run Nat.digitChar 10 (by decide) hrange.1 (Nat.lt_succ_of_le hrange.2)
  · split at h
    · rename_i hrange
      cases h
      left
      exact eq_of_run (fun k => Nat.digitChar (k + 10)) 6 (by decide) hrange.1
        (Nat.lt_succ_of_le hrange.2)
    · split at h
      · rename_i hrange
        cases h
        right
        exact eq_of_run (fun k => (Nat.digitChar (k + 10)).toUpper) 6 (by decide) hrange.1
          (Nat.lt_succ_of_le hrange.2)
      · cases h

theorem digitValue?_of_isDigitFor (h : IsDigitFor greatestBase c d) :
    digitValue? greatestBase c = some d := by
  have hall : ∀ d : Fin greatestBase, digitValue? greatestBase (Nat.digitChar d) = some d.val ∧
      digitValue? greatestBase (Nat.digitChar d).toUpper = some d.val := by decide
  obtain ⟨hlt, rfl | rfl⟩ := h
  · exact (hall ⟨d, hlt⟩).1
  · exact (hall ⟨d, hlt⟩).2

theorem digitValue?_eq_some_iff (hbase : base ≤ greatestBase) :
    digitValue? base c = some d ↔ IsDigitFor base c d := by
  rw [digitValue?_eq_some_iff_lt hbase]
  constructor
  · rintro ⟨h, hlt⟩
    exact ⟨hlt, (isDigitFor_of_digitValue? h).2⟩
  · rintro ⟨hlt, hc⟩
    exact ⟨digitValue?_of_isDigitFor ⟨Nat.lt_of_lt_of_le hlt hbase, hc⟩, hlt⟩

/-! ## Runs of digits -/

/-- The run of digits `cs` denotes `n`: the digit at the end counts once, the one before it `base`
times, and so on. -/
def Denotes (base : Nat) (cs : List Char) (n : Nat) : Prop :=
  cs ≠ [] ∧ ∃ ds, List.Forall₂ (IsDigitFor base) cs ds ∧ Nat.ofDigits base ds.reverse = n

theorem foldDigits?_eq_some_iff (hbase : base ≤ greatestBase) (soFar : Nat) :
    foldDigits? base soFar cs = some n ↔ ∃ ds, List.Forall₂ (IsDigitFor base) cs ds ∧
      soFar * base ^ cs.length + Nat.ofDigits base ds.reverse = n := by
  induction cs generalizing soFar with
  | nil => simp [foldDigits?]
  | cons c cs ih =>
    -- the first digit moves the part before it up by one place
    have hmove (d : Nat) (ds : List Nat) (hlength : cs.length = ds.length) :
        (soFar * base + d) * base ^ cs.length + Nat.ofDigits base ds.reverse =
          soFar * base ^ (cs.length + 1) + Nat.ofDigits base (d :: ds).reverse := by
      rw [Nat.ofDigits_reverse_cons, ← hlength]
      ring
    unfold foldDigits?
    simp only [Option.bind_eq_some_iff, digitValue?_eq_some_iff hbase, ih, List.length_cons]
    constructor
    · rintro ⟨d, hd, ds, hds, rfl⟩
      exact ⟨d :: ds, .cons hd hds, (hmove d ds hds.length_eq).symm⟩
    · rintro ⟨_, hds, rfl⟩
      cases hds with
      | cons hd hds => exact ⟨_, hd, _, hds, hmove _ _ hds.length_eq⟩

theorem digits?_eq_some_iff (hbase : base ≤ greatestBase) :
    digits? base cs = some n ↔ Denotes base cs n := by
  cases cs with
  | nil => simp [digits?, Denotes]
  | cons c cs =>
    unfold digits? Denotes
    rw [foldDigits?_eq_some_iff hbase]
    simp

/-! ## The characters of a numeral -/

/-- What holds of all digits of a greater base holds of the digits of this one. -/
theorem IsDigitFor.satisfies {p : Char → Bool} (greater : Nat) (hbase : base ≤ greater)
    (hp : ∀ d : Fin greater, p (Nat.digitChar d) = true ∧ p (Nat.digitChar d).toUpper = true)
    (h : IsDigitFor base c d) : p c = true := by
  obtain ⟨hlt, rfl | rfl⟩ := h
  · exact (hp ⟨d, Nat.lt_of_lt_of_le hlt hbase⟩).1
  · exact (hp ⟨d, Nat.lt_of_lt_of_le hlt hbase⟩).2

theorem IsDigitFor.isAlphanum (hbase : base ≤ greatestBase) (h : IsDigitFor base c d) :
    c.isAlphanum = true :=
  h.satisfies greatestBase hbase (by decide)

theorem IsDigitFor.isDigit (h : IsDigitFor 10 c d) : c.isDigit = true :=
  h.satisfies 10 (Nat.le_refl 10) (by decide)

theorem Denotes.exists_isDigitFor (h : Denotes base cs n) (hc : c ∈ cs) :
    ∃ d, IsDigitFor base c d := by
  obtain ⟨-, ds, hds, -⟩ := h
  induction hds with
  | nil => cases hc
  | cons hd _ ih =>
    rcases List.mem_cons.1 hc with rfl | hc
    · exact ⟨_, hd⟩
    · exact ih hc

/-! ## Signs -/

/-- Digits after an optional plus sign. -/
inductive Unsigned (base : Nat) : List Char → Nat → Prop
  | bare {cs : List Char} {n : Nat} (digits : Denotes base cs n) : Unsigned base cs n
  | plus {cs : List Char} {n : Nat} (digits : Denotes base cs n) : Unsigned base ('+' :: cs) n

/-- Digits after an optional sign. -/
inductive Signed (base : Nat) : List Char → Int → Prop
  | unsigned {cs : List Char} {n : Nat} (number : Unsigned base cs n) : Signed base cs n
  | minus {cs : List Char} {n : Nat} (digits : Denotes base cs n) : Signed base ('-' :: cs) (-n)

/-- No digit is a sign. -/
theorem not_denotes_cons (hbase : base ≤ greatestBase) (hc : c.isAlphanum = false) :
    ¬ Denotes base (c :: cs) n := by
  intro h
  obtain ⟨d, hd⟩ := h.exists_isDigitFor List.mem_cons_self
  rw [hd.isAlphanum hbase] at hc
  cases hc

theorem natural?_eq_some_iff (hbase : base ≤ greatestBase) :
    natural? base cs = some n ↔ Unsigned base cs n := by
  unfold natural?
  split
  · rw [digits?_eq_some_iff hbase]
    constructor
    · exact .plus
    · rintro (hbare | hplus)
      · exact absurd hbare (not_denotes_cons hbase (by decide))
      · exact hplus
  · rename_i hother
    rw [digits?_eq_some_iff hbase]
    constructor
    · exact .bare
    · rintro (hbare | _)
      · exact hbare
      · exact absurd rfl (hother _)

theorem integer?_eq_some_iff (hbase : base ≤ greatestBase) :
    integer? base cs = some v ↔ Signed base cs v := by
  unfold integer?
  split
  · simp only [Option.map_eq_some_iff, digits?_eq_some_iff hbase]
    constructor
    · rintro ⟨n, hn, rfl⟩
      exact .minus hn
    · rintro (⟨hbare | _⟩ | hminus)
      · exact absurd hbare (not_denotes_cons hbase (by decide))
      · exact ⟨_, hminus, rfl⟩
  · rename_i hother
    simp only [Option.map_eq_some_iff, natural?_eq_some_iff hbase]
    constructor
    · rintro ⟨n, hn, rfl⟩
      exact .unsigned hn
    · rintro (hnumber | _)
      · exact ⟨_, hnumber, rfl⟩
      · exact absurd rfl (hother _)

/-- A number is written with digits and signs. -/
theorem Signed.mem_cases (h : Signed base cs v) (hc : c ∈ cs) :
    (∃ d, IsDigitFor base c d) ∨ c = '+' ∨ c = '-' := by
  rcases h with ⟨hbare | hplus⟩ | hminus
  · exact .inl (hbare.exists_isDigitFor hc)
  · rcases List.mem_cons.1 hc with rfl | hc
    · exact .inr (.inl rfl)
    · exact .inl (hplus.exists_isDigitFor hc)
  · rcases List.mem_cons.1 hc with rfl | hc
    · exact .inr (.inr rfl)
    · exact .inl (hminus.exists_isDigitFor hc)

theorem Signed.ne_nil (h : Signed base cs v) : cs ≠ [] := by
  rcases h with ⟨hbare | _⟩ | _
  · exact hbare.1
  · simp
  · simp

end MavDialect.Text
