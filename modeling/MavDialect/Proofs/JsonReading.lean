-- Reading standard JSON text: every spelling of a value is read as that value, at any depth and
-- whatever follows it.  A number has no end of its own, so what follows must not continue it.
import MavDialect.Json.Reader
import MavDialect.Proofs.JsonSpelling

namespace MavDialect.Json

/-! ## Strings -/

theorem scanString?_plain {c : Char} {cs : List Char} (hlow : ' ' ≤ c) (hquote : c ≠ '"')
    (hback : c ≠ '\\') :
    scanString? (c :: cs) =
      (scanString? cs).map fun (pieces, rest) => (.char c :: pieces, rest) := by
  have hallowed : ¬ (c < ' ' ∨ c = '\\') := by
    rintro (h | h)
    · exact absurd h (Std.not_lt.2 hlow)
    · exact hback h
  rw [scanString?, if_neg hallowed]
  · cases scanString? cs <;> rfl
  all_goals grind

theorem scanString?_letter {e c : Char} {cs : List Char} (h : plainEscape? e = some c) :
    scanString? ('\\' :: e :: cs) =
      (scanString? cs).map fun (pieces, rest) => (.char c :: pieces, rest) := by
  have he : e ≠ 'u' := by
    rintro rfl
    cases h
  rw [scanString?]
  · rw [h]
    cases scanString? cs <;> rfl
  all_goals grind

theorem scanString?_unit {k l m n : Char} {cs : List Char} {code : Nat}
    (h : Text.digits? 16 [k, l, m, n] = some code) :
    scanString? ('\\' :: 'u' :: k :: l :: m :: n :: cs) =
      (scanString? cs).map fun (pieces, rest) =>
        ((if isSurrogate code then .surrogate code else .char (Char.ofNat code)) :: pieces,
          rest) := by
  rw [scanString?, unitEscape?, h]
  cases scanString? cs <;> rfl

/-- The scanner finds the end of a spelling, and its pieces make up the text. -/
theorem scanString?_spellings {text body : List Char} (h : Spellings text body) (rest : List Char) :
    ∃ pieces, scanString? (body ++ '"' :: rest) = some (pieces, rest) ∧
      joinPieces? pieces = some text := by
  induction h with
  | nil => exact ⟨[], by simp [scanString?], rfl⟩
  | @cons c piece text body hc _ ih =>
    obtain ⟨pieces, hscan, hjoin⟩ := ih
    cases hc with
    | plain hlow hquote hback =>
      refine ⟨.char c :: pieces, ?_, by simp [joinPieces?, hjoin]⟩
      rw [List.singleton_append, List.cons_append, scanString?_plain hlow hquote hback, hscan]
      rfl
    | letter he =>
      refine ⟨.char c :: pieces, ?_, by simp [joinPieces?, hjoin]⟩
      simp only [List.cons_append, List.nil_append]
      rw [scanString?_letter he, hscan]
      rfl
    | @unit k l m n code hdigits hcode =>
      refine ⟨.char (Char.ofNat code) :: pieces, ?_, by simp [joinPieces?, hjoin]⟩
      simp only [List.cons_append, List.nil_append]
      rw [scanString?_unit hdigits, hscan, hcode]
      rfl
    | @pair k l m n p q r s high low hhigh hlow hfirst hsecond =>
      refine ⟨.surrogate high :: .surrogate low :: pieces, ?_, ?_⟩
      · have hhighUnit : isSurrogate high = true := by simp [isSurrogate]; omega
        have hlowUnit : isSurrogate low = true := by simp [isSurrogate]; omega
        simp only [List.cons_append, List.nil_append]
        rw [scanString?_unit hhigh, scanString?_unit hlow, hscan, hhighUnit, hlowUnit]
        rfl
      · simp [joinPieces?, hjoin, hfirst.2, hsecond.1]

/-! ## Numbers -/

/-- What follows continues no number: it starts with no digit, and with neither a point nor the
letter of an exponent. -/
def Stops (cs : List Char) : Prop :=
  ∀ c ∈ cs.head?, c.isDigit = false ∧ c ≠ '.' ∧ c ≠ 'e' ∧ c ≠ 'E'

theorem stops_cons {c : Char} (h : c.isDigit = false ∧ c ≠ '.' ∧ c ≠ 'e' ∧ c ≠ 'E')
    (rest : List Char) : Stops (c :: rest) := by
  rintro d hd
  rwa [← Option.some.inj hd]

theorem span_digits {ds rest : List Char} (hds : ∀ c ∈ ds, c.isDigit = true) (h : Stops rest) :
    (ds ++ rest).takeWhile Char.isDigit = ds ∧ (ds ++ rest).dropWhile Char.isDigit = rest := by
  rw [List.takeWhile_append_of_pos hds, List.dropWhile_append_of_pos hds]
  cases rest with
  | nil => simp
  | cons c rest => simp [(h c rfl).1]

theorem scanFraction?_of_stops {rest : List Char} (h : Stops rest) :
    scanFraction? rest = some ([], rest) := by
  unfold scanFraction?
  split
  · exact absurd rfl (h '.' rfl).2.1
  · rfl

theorem scanExponent?_of_stops {rest : List Char} (h : Stops rest) :
    scanExponent? rest = some ([], rest) := by
  cases rest with
  | nil => rfl
  | cons c rest =>
    obtain ⟨hlower, hupper⟩ := (h c rfl).2.2
    simp [scanExponent?, hlower, hupper]

/-- Decimal notation starts with 0 for 0 only. -/
theorem decimalOfNat_head {n : Nat} (h : n ≠ 0) :
    ∃ c cs, Text.decimalOfNat n = c :: cs ∧ c ≠ '0' := by
  induction n using Nat.strongRecOn with
  | ind n ih =>
    rw [Text.decimalOfNat, Nat.toDigits_eq_if (by decide)]
    split
    · rename_i hlt
      have hdigit : ∀ d : Fin 10, d.val ≠ 0 → Nat.digitChar d ≠ '0' := by decide
      exact ⟨_, [], rfl, hdigit ⟨n, hlt⟩ h⟩
    · obtain ⟨c, cs, hcs, hc⟩ := ih (n / 10) (by omega) (by omega)
      rw [Text.decimalOfNat] at hcs
      rw [hcs]
      exact ⟨c, _, rfl, hc⟩

theorem isWhole_decimalOfNat (n : Nat) : isWhole (Text.decimalOfNat n) = true := by
  by_cases h : n = 0
  · subst h
    rfl
  · obtain ⟨c, cs, hcs, hc⟩ := decimalOfNat_head h
    rw [hcs]
    unfold isWhole
    split <;> simp_all

/-- A negative number is not spelled like the negative zero, which is no integer. -/
theorem numberOf?_decimalOfNat {negative : Bool} {n : Nat} (hzero : negative = true → n ≠ 0) :
    numberOf? negative (Text.decimalOfNat n) [] [] = some (.int (if negative then -n else n)) := by
  have hliteral : (if negative then ['-'] else []) ++ Text.decimalOfNat n ≠ ['-', '0'] := by
    cases negative with
    | false =>
      intro h
      have hminus : '-' ∈ Text.decimalOfNat n := by simp_all
      exact absurd (Text.isDigit_of_mem_decimalOfNat hminus) (by decide)
    | true =>
      intro h
      obtain ⟨c, cs, hcs, hc⟩ := decimalOfNat_head (hzero rfl)
      simp_all
  simp [numberOf?, hliteral, Text.digits?_decimalOfNat]

theorem scanUnsigned?_decimalOfNat (negative : Bool) (n : Nat) (hzero : negative = true → n ≠ 0)
    {rest : List Char} (h : Stops rest) :
    scanUnsigned? negative (Text.decimalOfNat n ++ rest) =
      some (.int (if negative then -n else n), rest) := by
  have hdigits : ∀ c ∈ Text.decimalOfNat n, c.isDigit = true :=
    fun _ => Text.isDigit_of_mem_decimalOfNat
  obtain ⟨htake, hdrop⟩ := span_digits hdigits h
  simp only [scanUnsigned?, htake, hdrop, isWhole_decimalOfNat, if_true,
    scanFraction?_of_stops h, scanExponent?_of_stops h, Option.bind_some,
    numberOf?_decimalOfNat hzero, Option.map_some]

/-! ## Tokens -/

/-- One turn of the reader. -/
theorem readFrom_eq (state : State) (cs : List Char) :
    readFrom state cs =
      match cs.dropWhile isSpace with
      | [] => some state
      | c :: rest =>
        (scanToken? c rest).bind fun (t, after) =>
          (state.step t).bind fun next => readFrom next after := by
  rw [readFrom]
  split
  · rename_i h
    rw [h]
  · rename_i c rest h
    split
    · rename_i ht
      simp [h, ht]
    · rename_i t after ht
      simp only [h, ht, Option.bind_some]
      cases state.step t <;> rfl

theorem readFrom_blank (state : State) {blank : List Char} (h : Blank blank) (cs : List Char) :
    readFrom state (blank ++ cs) = readFrom state cs := by
  rw [readFrom_eq, readFrom_eq, List.dropWhile_append_of_pos h]

theorem readFrom_token (state : State) {c : Char} {rest after : List Char} {t : Token}
    (hc : isSpace c = false) (ht : scanToken? c rest = some (t, after)) :
    readFrom state (c :: rest) = (state.step t).bind fun next => readFrom next after := by
  rw [readFrom_eq, List.dropWhile_cons_of_neg (by simp [hc])]
  simp only [ht, Option.bind_some]

theorem readFrom_string (state : State) {text : String} {body : List Char}
    (h : Spellings text.toList body) (rest : List Char) :
    readFrom state ('"' :: (body ++ '"' :: rest)) =
      (state.step (.scalar (.string (some text)))).bind fun next => readFrom next rest := by
  obtain ⟨pieces, hscan, hjoin⟩ := scanString?_spellings h rest
  refine readFrom_token state rfl ?_
  simp [scanToken?, hscan, hjoin]

theorem scanToken?_digit {c : Char} (h : c.isDigit = true) (cs : List Char) :
    scanToken? c cs = (scanUnsigned? false (c :: cs)).map fun (s, rest) => (.scalar s, rest) := by
  unfold scanToken?
  split
  all_goals first | rfl | cases h

theorem eq_of_isSpace {c : Char} (h : isSpace c = true) :
    c = ' ' ∨ c = '\t' ∨ c = '\n' ∨ c = '\r' := by
  simpa [isSpace, or_assoc] using h

theorem isSpace_of_isDigit {c : Char} (h : c.isDigit = true) : isSpace c = false := by
  rw [← Bool.not_eq_true]
  intro hspace
  rcases eq_of_isSpace hspace with rfl | rfl | rfl | rfl <;> cases h

theorem readFrom_int (state : State) (n : Int) {rest : List Char} (h : Stops rest) :
    readFrom state (Text.decimal n ++ rest) =
      (state.step (.scalar (.int n))).bind fun next => readFrom next rest := by
  cases n with
  | ofNat n =>
    have hscan := scanUnsigned?_decimalOfNat false n (by simp) h
    cases hdigits : Text.decimalOfNat n with
    | nil => exact absurd hdigits Nat.toDigits_ne_nil
    | cons c cs =>
      have hc : c.isDigit = true :=
        Text.isDigit_of_mem_decimalOfNat (hdigits ▸ List.mem_cons_self)
      rw [hdigits, List.cons_append] at hscan
      rw [Text.decimal, hdigits, List.cons_append]
      refine readFrom_token state (isSpace_of_isDigit hc) ?_
      rw [scanToken?_digit hc, hscan]
      rfl
  | negSucc n =>
    have hscan := scanUnsigned?_decimalOfNat true (n + 1) (by simp) h
    rw [Text.decimal, List.cons_append]
    refine readFrom_token state rfl ?_
    simp only [scanToken?, hscan]
    rfl

/-! ## Values -/

/-- A value may come next, and goes into `nest`.  A fresh array is such a state too, where a
bracket that closes it may come instead. -/
def Awaits (state : State) (nest : List Frame) : Prop :=
  ∀ t, t ≠ .closeArray → state.step t = State.begin nest t

theorem awaits_value (nest : List Frame) : Awaits (.value nest) nest := fun _ _ => rfl

theorem awaits_firstItem (nest : List Frame) : Awaits (.firstItem nest) (.items [] :: nest) := by
  intro t ht
  cases t with
  | closeArray => exact absurd rfl ht
  | _ => rfl

theorem stops_blank {blank cs : List Char} (hblank : Blank blank) (h : Stops cs) :
    Stops (blank ++ cs) := by
  cases blank with
  | nil => exact h
  | cons c blank =>
    intro d hd
    have hdc : c = d := Option.some.inj hd
    have hspace := hblank c List.mem_cons_self
    rw [hdc] at hspace
    rcases eq_of_isSpace hspace with rfl | rfl | rfl | rfl <;> decide

/-- `cs` is read as `v` wherever a value may come. -/
def Reads (v : Json) (cs : List Char) : Prop :=
  ∀ state nest, Awaits state nest → ∀ rest, Stops rest →
    readFrom state (cs ++ rest) = readFrom (.after v nest) rest

theorem reads_scalar {s : Scalar} {cs : List Char}
    (h : ∀ state rest, Stops rest → readFrom state (cs ++ rest) =
      (state.step (.scalar s)).bind fun next => readFrom next rest) : Reads (.scalar s) cs := by
  intro state nest hawaits rest hrest
  rw [h state rest hrest, hawaits _ (by simp)]
  rfl

/-- The items of an array, up to its end. -/
theorem readFrom_items {parts : List (Json × List Char)} (hne : parts ≠ [])
    (h : ∀ p ∈ parts, Reads p.1 p.2) {blank : List Char} (hblank : Blank blank)
    {state : State} {done : List Json} {nest : List Frame}
    (hawaits : Awaits state (.items done :: nest)) (rest : List Char) :
    readFrom state ([','].intercalate (parts.map (·.2)) ++ (blank ++ ']' :: rest)) =
      readFrom (.after (.array (done.reverse ++ parts.map (·.1))) nest) rest := by
  induction parts generalizing state done with
  | nil => exact absurd rfl hne
  | cons p parts ih =>
    obtain ⟨hp, hparts⟩ := List.forall_mem_cons.1 h
    cases parts with
    | nil =>
      have hstops := stops_blank hblank (stops_cons (c := ']') (by decide) rest)
      simp only [List.map_cons, List.map_nil, List.intercalate_singleton]
      rw [hp state _ hawaits _ hstops, readFrom_blank _ hblank,
        readFrom_token _ (t := .closeArray) rfl rfl]
      simp [State.step]
    | cons q parts =>
      have hrest := ih (by simp) hparts (awaits_value (.items (p.1 :: done) :: nest))
      simp only [List.map_cons, List.intercalate_cons_cons, List.append_assoc,
        List.cons_append, List.nil_append] at hrest ⊢
      rw [hp state _ hawaits _ (stops_cons (c := ',') (by decide) _),
        readFrom_token _ (t := .comma) rfl rfl]
      simp only [State.step, Option.bind_some]
      rw [hrest]
      simp

/-- A key may come next, in an object that holds `done`. -/
def AwaitsKey (state : State) (done : List (Option String × Json)) (nest : List Frame) : Prop :=
  ∀ k, state.step (.scalar (.string k)) = some (.colon done k nest)

theorem readFrom_member {name : String} {v : Json} {key cs : List Char}
    (hkey : KeySpelling name key) (h : Reads v cs) {state : State}
    {done : List (Option String × Json)} {nest : List Frame} (hawaits : AwaitsKey state done nest)
    {rest : List Char} (hrest : Stops rest) :
    readFrom state (key ++ ':' :: (cs ++ rest)) =
      readFrom (.after v (.members done (some name) :: nest)) rest := by
  cases hkey with
  | mk hbefore hname hafter =>
    simp only [List.append_assoc, List.cons_append]
    rw [readFrom_blank _ hbefore, readFrom_string _ hname, hawaits, Option.bind_some,
      readFrom_blank _ hafter, readFrom_token _ (t := .colon) rfl rfl]
    exact h _ _ (awaits_value _) _ hrest

/-- The members of an object, up to its end. -/
theorem readFrom_members {parts : List ((String × Json) × List Char × List Char)} (hne : parts ≠ [])
    (hkeys : ∀ p ∈ parts, KeySpelling p.1.1 p.2.1) (h : ∀ p ∈ parts, Reads p.1.2 p.2.2)
    {blank : List Char} (hblank : Blank blank) {state : State}
    {done : List (Option String × Json)} {nest : List Frame} (hawaits : AwaitsKey state done nest)
    (rest : List Char) :
    readFrom state ([','].intercalate (parts.map fun p => p.2.1 ++ ':' :: p.2.2) ++
        (blank ++ '\x7d' :: rest)) =
      readFrom (.after (.object (done.reverse ++ parts.map fun p => (some p.1.1, p.1.2))) nest)
        rest := by
  induction parts generalizing state done with
  | nil => exact absurd rfl hne
  | cons p parts ih =>
    obtain ⟨hp, hparts⟩ := List.forall_mem_cons.1 h
    obtain ⟨hkey, hothers⟩ := List.forall_mem_cons.1 hkeys
    cases parts with
    | nil =>
      have hstops := stops_blank hblank (stops_cons (c := '\x7d') (by decide) rest)
      simp only [List.map_cons, List.map_nil, List.intercalate_singleton, List.append_assoc,
        List.cons_append]
      rw [readFrom_member hkey hp hawaits hstops, readFrom_blank _ hblank,
        readFrom_token _ (t := .closeObject) rfl rfl]
      simp [State.step]
    | cons q parts =>
      have hnext : AwaitsKey (.key ((some p.1.1, p.1.2) :: done) nest)
          ((some p.1.1, p.1.2) :: done) nest := fun _ => rfl
      have hrest := ih (by simp) hothers hparts hnext
      simp only [List.map_cons, List.intercalate_cons_cons, List.append_assoc,
        List.cons_append, List.nil_append] at hrest ⊢
      rw [readFrom_member hkey hp hawaits (stops_cons (c := ',') (by decide) _),
        readFrom_token _ (t := .comma) rfl rfl]
      simp only [State.step, Option.bind_some]
      rw [hrest]
      simp

/-- Every spelling of a value is read as this value. -/
theorem Written.reads {v : Json} {cs : List Char} (h : Written v cs) : Reads v cs := by
  induction h with
  | null => exact reads_scalar fun _ _ _ => readFrom_token _ rfl rfl
  | yes => exact reads_scalar fun _ _ _ => readFrom_token _ rfl rfl
  | no => exact reads_scalar fun _ _ _ => readFrom_token _ rfl rfl
  | int n => exact reads_scalar fun state _ hrest => readFrom_int state n hrest
  | string h =>
    refine reads_scalar fun state rest _ => ?_
    simp only [List.cons_append, List.append_assoc, List.nil_append]
    exact readFrom_string state h rest
  | emptyArray hblank =>
    intro state nest hawaits rest _
    simp only [List.cons_append, List.append_assoc, List.nil_append]
    rw [readFrom_token _ (t := .openArray) rfl rfl, hawaits _ (by simp)]
    simp only [State.begin, Option.bind_some]
    rw [readFrom_blank _ hblank, readFrom_token _ (t := .closeArray) rfl rfl]
    rfl
  | array hne _ hblank ih =>
    intro state nest hawaits rest _
    simp only [List.cons_append, List.append_assoc, List.nil_append]
    rw [readFrom_token _ (t := .openArray) rfl rfl, hawaits _ (by simp)]
    simp only [State.begin, Option.bind_some]
    exact readFrom_items hne ih hblank (awaits_firstItem nest) rest
  | emptyObject hblank =>
    intro state nest hawaits rest _
    simp only [List.cons_append, List.append_assoc, List.nil_append]
    rw [readFrom_token _ (t := .openObject) rfl rfl, hawaits _ (by simp)]
    simp only [State.begin, Option.bind_some]
    rw [readFrom_blank _ hblank, readFrom_token _ (t := .closeObject) rfl rfl]
    rfl
  | object hne hkeys _ hblank ih =>
    intro state nest hawaits rest _
    simp only [List.cons_append, List.append_assoc, List.nil_append]
    rw [readFrom_token _ (t := .openObject) rfl rfl, hawaits _ (by simp)]
    simp only [State.begin, Option.bind_some]
    rw [readFrom_members hne hkeys ih hblank (fun _ => rfl) rest, record]
    simp [Function.comp_def]
  | padded hbefore _ hafter ih =>
    intro state nest hawaits rest hrest
    simp only [List.append_assoc]
    rw [readFrom_blank _ hbefore, ih state nest hawaits _ (stops_blank hafter hrest),
      readFrom_blank _ hafter]

theorem parse?_of_written {v : Json} {text : String} (h : Written v text.toList) :
    parse? text = some v := by
  have hread := h.reads (.value []) [] (awaits_value []) [] (by simp [Stops])
  rw [List.append_nil, readFrom_eq _ []] at hread
  rw [parse?, hread]
  rfl

theorem parse?_compact {v : Json} (h : Plain v) : parse? v.compact = some v :=
  parse?_of_written (by rw [compact, String.toList_ofList]; exact h.written_compact)

theorem parse?_pretty {v : Json} (h : Plain v) : parse? v.pretty = some v :=
  parse?_of_written (by rw [pretty, String.toList_ofList]; exact h.written_indented 0)

end MavDialect.Json
