-- How a declared type is read.  An array is an element of one line and, in brackets at the end, one
-- or more decimal digits of any script; every other text is looked up as the name of a primitive.
-- The digits are a length only when they are ASCII digits and denote a number that fits one byte,
-- and the element is looked at first.  The size of an element is read from the same texts, whatever
-- their length says.
import MavDialect.Proofs.BuiltField
import MavDialect.Proofs.PositionalNotation
import Mathlib.Data.List.TakeWhile

namespace MavDialect

namespace Primitive

theorem ofName?_name (p : Primitive) : ofName? p.name = .ok p := by
  cases p <;> rfl

theorem ofName?_of_ne {s : String} (h : ∀ p : Primitive, s ≠ p.name) : ofName? s = .error ⟨s⟩ := by
  have hnone : all.find? (·.name == s) = none := by
    rw [List.find?_eq_none]
    intro p _
    simpa using (h p).symm
  rw [ofName?, hnone]

end Primitive

namespace FieldType

open Text

variable {s element digits : String} {p : Primitive} {n : Nat}

/-! ## Declared arrays -/

/-- `s` declares an array: an element without a line break, and in brackets one or more decimal
digits of any script. -/
structure DeclaresArray (s element digits : String) : Prop where
  spelling : s = element ++ "[" ++ digits ++ "]"
  oneLine : '\n' ∉ element.toList
  digits_ne : digits ≠ ""
  decimal : ∀ c ∈ digits.toList, isDecimal c = true

theorem splitArray?_eq_some_iff {cs front ds : List Char} :
    splitArray? cs = some (front, ds) ↔ cs = front ++ '[' :: ds ++ [']'] ∧
      '\n' ∉ front ∧ ds ≠ [] ∧ ∀ c ∈ ds, isDecimal c = true := by
  constructor
  · intro h
    unfold splitArray? at h
    split at h
    · rename_i rest hcs
      split at h
      · rename_i d others before hdigits hbefore
        split at h
        · cases h
        · rename_i hline
          cases h
          have hrest : rest = d :: others ++ '[' :: before := by
            rw [← hdigits, ← hbefore, List.takeWhile_append_dropWhile]
          refine ⟨?_, by simpa using hline, by simp, fun c hc => ?_⟩
          · rw [← List.reverse_reverse cs, hcs, hrest]
            simp
          · rw [List.mem_reverse, ← hdigits] at hc
            exact List.mem_takeWhile_imp hc
      · cases h
    · cases h
  · rintro ⟨rfl, hline, hne, hdecimal⟩
    -- read from the end, the digits stop at the bracket before them
    have hreverse : (front ++ '[' :: ds ++ [']']).reverse =
        ']' :: (ds.reverse ++ '[' :: front.reverse) := by simp
    have hall : ∀ c ∈ ds.reverse, isDecimal c = true :=
      fun c hc => hdecimal c (List.mem_reverse.1 hc)
    have hbracket : ¬ isDecimal '[' = true := by decide
    have htake : (ds.reverse ++ '[' :: front.reverse).takeWhile isDecimal = ds.reverse := by
      rw [List.takeWhile_append_of_pos hall, List.takeWhile_cons_of_neg hbracket, List.append_nil]
    have hdrop : (ds.reverse ++ '[' :: front.reverse).dropWhile isDecimal =
        '[' :: front.reverse := by
      rw [List.dropWhile_append_of_pos hall, List.dropWhile_cons_of_neg hbracket]
    unfold splitArray?
    rw [hreverse]
    simp only [htake, hdrop]
    cases hds : ds.reverse with
    | nil => exact absurd (List.reverse_eq_nil_iff.1 hds) hne
    | cons d others =>
      have hback : ds = (d :: others).reverse := by rw [← hds, List.reverse_reverse]
      simp [hline, hback]

theorem splitArray?_toList_iff :
    splitArray? s.toList = some (element.toList, digits.toList) ↔
      DeclaresArray s element digits := by
  rw [splitArray?_eq_some_iff]
  constructor
  · rintro ⟨hspelling, hline, hne, hdecimal⟩
    refine ⟨String.toList_inj.1 ?_, hline, mt String.toList_eq_nil_iff.2 hne, hdecimal⟩
    simpa using hspelling
  · rintro ⟨hspelling, hline, hne, hdecimal⟩
    refine ⟨?_, hline, mt String.toList_eq_nil_iff.1 hne, hdecimal⟩
    simpa using congrArg String.toList hspelling

theorem DeclaresArray.split (h : DeclaresArray s element digits) :
    splitArray? s.toList = some (element.toList, digits.toList) := splitArray?_toList_iff.2 h

/-- A text declares an array in one way only. -/
theorem DeclaresArray.unique {element' digits' : String} (h : DeclaresArray s element digits)
    (h' : DeclaresArray s element' digits') : element = element' ∧ digits = digits' := by
  have hsame := h.split.symm.trans h'.split
  simpa [String.toList_inj] using hsame

theorem splitArray?_eq_none_iff :
    splitArray? s.toList = none ↔ ∀ element digits, ¬ DeclaresArray s element digits := by
  constructor
  · intro h element digits hdeclares
    rw [hdeclares.split] at h
    cases h
  · intro h
    rw [Option.eq_none_iff_forall_ne_some]
    rintro ⟨front, ds⟩ hsplit
    apply h (String.ofList front) (String.ofList ds)
    rw [← splitArray?_toList_iff]
    simpa using hsplit

/-- No name of a primitive ends in a bracket. -/
theorem not_declaresArray_name (p : Primitive) (element digits : String) :
    ¬ DeclaresArray p.name element digits := by
  have hnone : splitArray? p.name.toList = none := by cases p <;> decide
  exact splitArray?_eq_none_iff.1 hnone element digits

/-! ## Lengths -/

/-- Decimal digits hold no sign. -/
theorem natural?_of_decimal {ds : List Char} (h : ∀ c ∈ ds, isDecimal c = true) :
    natural? 10 ds = digits? 10 ds := by
  unfold natural?
  split
  · have hplus := h '+' List.mem_cons_self
    exact absurd hplus (by decide)
  · rfl

theorem arrayLength?_eq_some_iff {ds : List Char} (h : ∀ c ∈ ds, isDecimal c = true)
    (length : { n : Nat // n ≤ maxArrayLength }) :
    arrayLength? ds = some length ↔ Denotes 10 ds length := by
  unfold arrayLength?
  rw [natural?_of_decimal h, ← digits?_eq_some_iff (by decide)]
  cases digits? 10 ds with
  | none => simp
  | some n =>
    by_cases hn : n ≤ maxArrayLength
    · simp [hn, Subtype.ext_iff]
    · have hne : n ≠ length := by
        rintro rfl
        exact hn length.property
      simp [hn, hne]

theorem arrayLength?_eq_none_iff {ds : List Char} (h : ∀ c ∈ ds, isDecimal c = true) :
    arrayLength? ds = none ↔ ∀ n ≤ maxArrayLength, ¬ Denotes 10 ds n := by
  rw [Option.eq_none_iff_forall_ne_some]
  constructor
  · intro hnone n hn hdenotes
    exact hnone ⟨n, hn⟩ ((arrayLength?_eq_some_iff h ⟨n, hn⟩).2 hdenotes)
  · intro hnot length hlength
    exact hnot length length.property ((arrayLength?_eq_some_iff h length).1 hlength)

/-! ## What a text is read as -/

theorem length_fits (hn : n ≤ maxArrayLength) : ∀ k ∈ some n, k ≤ maxArrayLength := by
  simpa using hn

/-- What a text is read as, and the size of one element. -/
inductive Reading (s : String) : Except FieldTypeError FieldType → Except UnknownType Nat → Prop
  | array {p : Primitive} {digits : String} {n : Nat} (form : DeclaresArray s p.name digits)
      (length : Denotes 10 digits.toList n) (fits : n ≤ maxArrayLength) :
      Reading s (.ok ⟨p, some n, length_fits fits⟩) (.ok p.size)
  | badLength {p : Primitive} {digits : String} (form : DeclaresArray s p.name digits)
      (bad : ∀ n ≤ maxArrayLength, ¬ Denotes 10 digits.toList n) :
      Reading s (.error (.badLength s digits)) (.ok p.size)
  | unknownElement {element digits : String} (form : DeclaresArray s element digits)
      (unknown : ∀ p : Primitive, element ≠ p.name) :
      Reading s (.error (.unknown ⟨element⟩)) (.error ⟨element⟩)
  | scalar {p : Primitive} (name : s = p.name) : Reading s (.ok (single p)) (.ok p.size)
  | unknown (noArray : ∀ element digits, ¬ DeclaresArray s element digits)
      (unknown : ∀ p : Primitive, s ≠ p.name) :
      Reading s (.error (.unknown ⟨s⟩)) (.error ⟨s⟩)

/-- The length of a declared array of a primitive is read, or it is refused. -/
theorem parse_of_declaresArray (form : DeclaresArray s p.name digits) :
    parse s = match arrayLength? digits.toList with
      | none => .error (.badLength s digits)
      | some n => .ok ⟨p, some n, length_fits n.property⟩ := by
  unfold parse
  rw [form.split]
  cases hlength : arrayLength? digits.toList <;>
    simp only [String.ofList_toList, Primitive.ofName?_name, hlength]

theorem declaredElementSize_of_declaresArray (form : DeclaresArray s element digits) :
    declaredElementSize s = (Primitive.ofName? element).map Primitive.size := by
  unfold declaredElementSize
  rw [form.split]
  simp only [String.ofList_toList]

theorem Reading.results {r : Except FieldTypeError FieldType} {z : Except UnknownType Nat}
    (h : Reading s r z) : parse s = r ∧ declaredElementSize s = z := by
  cases h with
  | array form length fits =>
    constructor
    · rw [parse_of_declaresArray form, (arrayLength?_eq_some_iff form.decimal ⟨_, fits⟩).2 length]
    · rw [declaredElementSize_of_declaresArray form, Primitive.ofName?_name]
      rfl
  | badLength form bad =>
    constructor
    · rw [parse_of_declaresArray form, (arrayLength?_eq_none_iff form.decimal).2 bad]
    · rw [declaredElementSize_of_declaresArray form, Primitive.ofName?_name]
      rfl
  | unknownElement form unknown =>
    have hunknown := Primitive.ofName?_of_ne unknown
    constructor
    · unfold parse
      rw [form.split]
      simp only [String.ofList_toList, hunknown]
    · rw [declaredElementSize_of_declaresArray form, hunknown]
      rfl
  | scalar name =>
    have hnone : splitArray? s.toList = none := by
      rw [splitArray?_eq_none_iff, name]
      exact not_declaresArray_name _
    constructor
    · rw [name, parse_name]
    · unfold declaredElementSize
      rw [hnone, name]
      simp only [Primitive.ofName?_name]
      rfl
  | unknown noArray unknown =>
    have hnone := splitArray?_eq_none_iff.2 noArray
    have hunknown := Primitive.ofName?_of_ne unknown
    constructor
    · unfold parse
      rw [hnone]
      simp only [hunknown]
    · unfold declaredElementSize
      rw [hnone]
      simp only [hunknown]
      rfl

theorem exists_reading (s : String) : ∃ r z, Reading s r z := by
  by_cases harray : ∃ element digits, DeclaresArray s element digits
  · obtain ⟨element, digits, form⟩ := harray
    by_cases hname : ∃ p : Primitive, element = p.name
    · obtain ⟨p, rfl⟩ := hname
      by_cases hlength : ∃ n ≤ maxArrayLength, Denotes 10 digits.toList n
      · obtain ⟨n, hfits, hdenotes⟩ := hlength
        exact ⟨_, _, .array form hdenotes hfits⟩
      · exact ⟨_, _, .badLength form fun n hn hdenotes => hlength ⟨n, hn, hdenotes⟩⟩
    · exact ⟨_, _, .unknownElement form (not_exists.1 hname)⟩
  · have hnone : ∀ element digits, ¬ DeclaresArray s element digits :=
      fun element digits form => harray ⟨element, digits, form⟩
    by_cases hname : ∃ p : Primitive, s = p.name
    · obtain ⟨p, hp⟩ := hname
      exact ⟨_, _, .scalar hp⟩
    · exact ⟨_, _, .unknown hnone (not_exists.1 hname)⟩

theorem reading (s : String) : Reading s (parse s) (declaredElementSize s) := by
  obtain ⟨r, z, h⟩ := exists_reading s
  obtain ⟨hparse, hsize⟩ := h.results
  rwa [hparse, hsize]

theorem exists_reading_of_parse {r : Except FieldTypeError FieldType} (h : parse s = r) :
    ∃ z, Reading s r z := ⟨_, h ▸ reading s⟩

/-! ## When a text is read so -/

theorem parse_eq_array_iff :
    (∃ t, parse s = .ok t ∧ t.element = p ∧ t.length = some n) ↔
      ∃ digits, DeclaresArray s p.name digits ∧ Denotes 10 digits.toList n ∧
        n ≤ maxArrayLength := by
  constructor
  · rintro ⟨t, ht, rfl, hlength⟩
    obtain ⟨z, h⟩ := exists_reading_of_parse ht
    cases h with
    | array form length fits =>
      cases hlength
      exact ⟨_, form, length, fits⟩
    | scalar => cases hlength
  · rintro ⟨digits, form, length, fits⟩
    exact ⟨_, (Reading.array form length fits).results.1, rfl, rfl⟩

theorem parse_eq_scalar_iff : parse s = .ok (single p) ↔ s = p.name := by
  constructor
  · intro ht
    obtain ⟨z, h⟩ := exists_reading_of_parse ht
    unfold single at h
    cases h with
    | scalar name => exact name
  · rintro rfl
    exact parse_name p

theorem parse_eq_badLength_iff {declared : String} :
    parse s = .error (.badLength declared digits) ↔
      declared = s ∧ ∃ p : Primitive, DeclaresArray s p.name digits ∧
        ∀ n ≤ maxArrayLength, ¬ Denotes 10 digits.toList n := by
  constructor
  · intro ht
    obtain ⟨z, h⟩ := exists_reading_of_parse ht
    cases h with
    | badLength form bad => exact ⟨rfl, _, form, bad⟩
  · rintro ⟨rfl, p, form, bad⟩
    exact (Reading.badLength form bad).results.1

theorem parse_eq_unknown_iff {name : String} :
    parse s = .error (.unknown ⟨name⟩) ↔ (∀ p : Primitive, name ≠ p.name) ∧
      ((∃ digits, DeclaresArray s name digits) ∨
        name = s ∧ ∀ element digits, ¬ DeclaresArray s element digits) := by
  constructor
  · intro ht
    obtain ⟨z, h⟩ := exists_reading_of_parse ht
    cases h with
    | unknownElement form unknown => exact ⟨unknown, .inl ⟨_, form⟩⟩
    | unknown noArray unknown => exact ⟨unknown, .inr ⟨rfl, noArray⟩⟩
  · rintro ⟨hunknown, ⟨digits, form⟩ | ⟨rfl, noArray⟩⟩
    · exact (Reading.unknownElement form hunknown).results.1
    · exact (Reading.unknown noArray hunknown).results.1

theorem declaredElementSize_eq_ok_iff {size : Nat} :
    declaredElementSize s = .ok size ↔ (∃ t, parse s = .ok t ∧ t.elementSize = size) ∨
      ∃ (p : Primitive) (digits : String), DeclaresArray s p.name digits ∧ p.size = size ∧
        parse s = .error (.badLength s digits) := by
  have h := reading s
  generalize parse s = r, declaredElementSize s = z at h
  cases h with
  | array | scalar | unknownElement | unknown => simp [elementSize, single]
  | badLength form bad =>
    constructor
    · intro hsize
      cases hsize
      exact .inr ⟨_, _, form, rfl, rfl⟩
    · rintro (⟨t, ht, _⟩ | ⟨q, digits', form', rfl, _⟩)
      · cases ht
      · rw [Primitive.name_inj _ q (form.unique form').1]

theorem declaredElementSize_eq_error_iff {e : UnknownType} :
    declaredElementSize s = .error e ↔ parse s = .error (.unknown e) := by
  have h := reading s
  generalize parse s = r, declaredElementSize s = z at h
  cases h <;> simp

/-- Every text is read by its spelling.  It declares an array in at most one way.  It is an array of
`n` values of `p` exactly when it is the name of `p` with ASCII digits for `n` in brackets, and `n`
fits one byte; it is a single `p` exactly when it is that name.  Its length is refused exactly when
it declares an array of a primitive with other digits, and in all other cases the type is unknown,
the element's or its own.  The size of an element is found wherever the type is read or its length
refused, and fails as the type does elsewhere. -/
theorem a_type_is_read_by_its_spelling (s : String) :
    (∀ element digits element' digits', DeclaresArray s element digits →
      DeclaresArray s element' digits' → element = element' ∧ digits = digits') ∧
    (∀ (p : Primitive) (n : Nat),
      (∃ t, parse s = .ok t ∧ t.element = p ∧ t.length = some n) ↔
        ∃ digits, DeclaresArray s p.name digits ∧ Denotes 10 digits.toList n ∧ n ≤ 255) ∧
    (∀ p : Primitive, parse s = .ok (single p) ↔ s = p.name) ∧
    (∀ declared digits, parse s = .error (.badLength declared digits) ↔
      declared = s ∧ ∃ p : Primitive, DeclaresArray s p.name digits ∧
        ∀ n ≤ 255, ¬ Denotes 10 digits.toList n) ∧
    (∀ name, parse s = .error (.unknown ⟨name⟩) ↔ (∀ p : Primitive, name ≠ p.name) ∧
      ((∃ digits, DeclaresArray s name digits) ∨
        name = s ∧ ∀ element digits, ¬ DeclaresArray s element digits)) ∧
    (∀ size, declaredElementSize s = .ok size ↔ (∃ t, parse s = .ok t ∧ t.elementSize = size) ∨
      ∃ (p : Primitive) (digits : String), DeclaresArray s p.name digits ∧ p.size = size ∧
        parse s = .error (.badLength s digits)) ∧
    (∀ e, declaredElementSize s = .error e ↔ parse s = .error (.unknown e)) :=
  ⟨fun _ _ _ _ form form' => form.unique form', fun _ _ => parse_eq_array_iff,
    fun _ => parse_eq_scalar_iff, fun _ _ => parse_eq_badLength_iff, fun _ => parse_eq_unknown_iff,
    fun _ => declaredElementSize_eq_ok_iff, fun _ => declaredElementSize_eq_error_iff⟩

/-- A digit four of another script is a decimal digit, but no length. -/
theorem a_length_of_another_script_is_refused :
    DeclaresArray "char[\u0664]" "char" "\u0664" ∧
      parse "char[\u0664]" = .error (.badLength "char[\u0664]" "\u0664") ∧
      declaredElementSize "char[\u0664]" = .ok 1 := by
  have form : DeclaresArray "char[\u0664]" "char" "\u0664" :=
    splitArray?_toList_iff.1 (by decide)
  obtain ⟨_, _, _, hbad, _, hsize, _⟩ := a_type_is_read_by_its_spelling "char[\u0664]"
  have hparse : parse "char[\u0664]" = .error (.badLength "char[\u0664]" "\u0664") := by
    refine (hbad _ _).2 ⟨rfl, .char, form, fun n _ hdenotes => ?_⟩
    have hdigits := (digits?_eq_some_iff (by decide)).2 hdenotes
    cases hdigits
  exact ⟨form, hparse, (hsize 1).2 (.inr ⟨.char, _, form, rfl, hparse⟩)⟩

end FieldType

end MavDialect
