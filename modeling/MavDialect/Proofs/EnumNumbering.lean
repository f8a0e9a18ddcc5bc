-- The numbers of the values of an enum.  Each entry gets the number that it declares, or one more
-- than the value before it, and what is kept with the number is read as that number again.
-- Counting ends at the greatest number of 128 bits: an entry that would have to go on from there is
-- refused, and no other entry without a number is.
import MavDialect.Proofs.EnumNumeralReading
import MavDialect.Proofs.Locality

namespace MavDialect

namespace Compile

open Faults Outcome Traced

/-! ## One value after another -/

/-- The value is that of the entry.  Its number is the declared one, or else one more than the
previous number, and 0 where there is none; it fits, and the text kept with it is read as it. -/
structure Numbers (previous : Option Int) (entry : Element) (v : EnumValue) : Prop where
  sourceName : entry.attribute? "name" = some v.sourceName
  declared : ∀ text, entry.attribute? "value" = some text → EnumNumeral.read? text = some v.value
  counted : entry.attribute? "value" = none → v.value = previous.elim 0 (· + 1)
  fits : -2 ^ 127 ≤ v.value ∧ v.value ≤ 2 ^ 127 - 1
  reread : EnumNumeral.read? v.sourceValue = some v.value

/-- The values are those of the entries, in order, each numbered after the one before it. -/
inductive Numbered : Option Int → List Element → List EnumValue → Prop
  | nil {previous : Option Int} : Numbered previous [] []
  | cons {previous : Option Int} {entry : Element} {v : EnumValue} {entries : List Element}
      {values : List EnumValue} (first : Numbers previous entry v)
      (others : Numbered (some v.value) entries values) :
      Numbered previous (entry :: entries) (v :: values)

theorem greatest_eq : greatest = 2 ^ 127 - 1 := by decide

/-- A declared number is what its text is read as; another one is counted, and its text is its
decimal notation. -/
theorem number_of_entryNumber {previous : Option EnumValue} {e : Declaration.Entry} {n : Int}
    {text : String} (h : entryNumber previous e = .ok (n, text)) :
    (∀ declared, e.value = some declared → EnumNumeral.read? declared = some n) ∧
      (e.value = none → n = (previous.map (·.value)).elim 0 (· + 1)) ∧
        EnumNumeral.read? text = some n := by
  obtain ⟨hnumbering, hfits⟩ := numbering_of_entryNumber h
  cases hvalue : e.value with
  | none =>
    rw [hvalue] at hnumbering
    obtain ⟨hn, htext⟩ := Prod.mk.inj hnumbering
    refine ⟨by simp, fun _ => ?_, ?_⟩
    · rw [hn]
      cases previous with
      | none => rfl
      | some p => rfl
    · rw [htext, ← hn]
      exact EnumNumeral.read?_decimalText (EnumNumeral.fitsSigned_iff_fits.1 hfits)
  | some declared =>
    unfold entryNumber at h
    rw [hvalue] at h
    dsimp only at h
    cases hread : EnumNumeral.read? declared with
    | none =>
      rw [hread] at h
      cases h
    | some found =>
      rw [hread] at h
      cases h
      exact ⟨by simp [hread], by simp, hread⟩

theorem numbers_of_enumValue {options : Options} {previous : Option EnumValue} {entry : Element}
    {e : Declaration.Entry} {v : EnumValue} (hread : Declaration.Entry.ofElement entry = .ok e)
    (h : (enumValue options previous e).result = .ok v) :
    Numbers (previous.map (·.value)) entry v := by
  obtain ⟨name, hname, hentry⟩ := bind_eq_ok_iff.1 hread
  have hvalue := Declaration.value_of_entry hread
  obtain ⟨_, hfits⟩ := standing_of_enumValue h
  unfold enumValue at h
  rw [result_bind, result_ofExcept] at h
  obtain ⟨⟨n, text⟩, hnumber, h⟩ := bind_eq_ok_iff.1 h
  rw [result_bind] at h
  obtain ⟨params, _, h⟩ := bind_eq_ok_iff.1 h
  obtain ⟨hdeclared, hcounted, hreread⟩ := number_of_entryNumber hnumber
  rw [hvalue] at hdeclared hcounted
  cases h
  cases hentry
  exact {
    sourceName := Declaration.require_eq_ok hname
    declared := hdeclared
    counted := hcounted
    fits := EnumNumeral.fitsSigned_iff_fits.1 hfits
    reread := hreread }

/-- The values are made of the entries one after another, each with the value before it in view. -/
inductive Walked (options : Options) : Option EnumValue → List Element → List EnumValue → Prop
  | nil {previous : Option EnumValue} : Walked options previous [] []
  | cons {previous : Option EnumValue} {entry : Element} {e : Declaration.Entry} {v : EnumValue}
      {entries : List Element} {values : List EnumValue}
      (hread : Declaration.Entry.ofElement entry = .ok e)
      (hvalue : (enumValue options previous e).result = .ok v)
      (others : Walked options (some v) entries values) :
      Walked options previous (entry :: entries) (v :: values)

theorem walked_of_enumValues {options : Options} {previous : Option EnumValue}
    {elements : List Element} {entries : List Declaration.Entry} {values : List EnumValue}
    (hread : elements.mapM Declaration.Entry.ofElement = .ok entries)
    (h : (enumValues options previous entries).result = .ok values) :
    Walked options previous elements values := by
  induction elements generalizing previous entries values with
  | nil =>
    cases hread
    cases h
    exact .nil
  | cons element rest ih =>
    obtain ⟨e, others, he, hothers, rfl⟩ := mapM_cons_eq_ok_iff.1 hread
    rw [enumValues, result_bind] at h
    obtain ⟨v, hv, h⟩ := bind_eq_ok_iff.1 h
    rw [result_bind] at h
    obtain ⟨vs, hvs, h⟩ := bind_eq_ok_iff.1 h
    cases h
    exact .cons he hv (ih hothers hvs)

theorem Walked.numbered {options : Options} {previous : Option EnumValue}
    {elements : List Element} {values : List EnumValue}
    (h : Walked options previous elements values) :
    Numbered (previous.map (·.value)) elements values := by
  induction h with
  | nil => exact .nil
  | cons hread hvalue _ ih => exact .cons (numbers_of_enumValue hread hvalue) ih

/-- The short names change no number. -/
theorem Numbered.shortened {previous : Option Int} {elements : List Element}
    {values : List EnumValue} (h : Numbered previous elements values)
    (rename : EnumValue → String) :
    Numbered previous elements (values.map fun v => { v with name := rename v }) := by
  induction h with
  | nil => exact .nil
  | cons first _ ih =>
    exact .cons ⟨first.sourceName, first.declared, first.counted, first.fits, first.reread⟩ ih

/-- The values of an enum are made of its entries. -/
theorem values_of_enumOf {options : Options} {e : Element} {x : Enumeration}
    (h : enumOf options e = .ok x) :
    ∃ entries, (e.childrenWith "entry").mapM Declaration.Entry.ofElement = .ok entries ∧
      (enumValues options none entries).result = .ok x.values := by
  obtain ⟨declared, hdeclared, h⟩ := bind_eq_ok_iff.1 h
  obtain ⟨entries, hentries, hdeclared⟩ := bind_eq_ok_iff.1 hdeclared
  obtain ⟨name, _, hdeclared⟩ := bind_eq_ok_iff.1 hdeclared
  cases hdeclared
  unfold enumeration at h
  rw [result_bind, result_report] at h
  obtain ⟨_, _, h⟩ := bind_eq_ok_iff.1 h
  rw [result_bind] at h
  obtain ⟨values, hvalues, h⟩ := bind_eq_ok_iff.1 h
  cases h
  exact ⟨entries, hentries, hvalues⟩

theorem numbered_of_enumOf {options : Options} {e : Element} {x : Enumeration}
    (h : enumOf options e = .ok x) :
    Numbered none (e.childrenWith "entry") x.shortenNames.values := by
  obtain ⟨entries, hread, hvalues⟩ := values_of_enumOf h
  exact (walked_of_enumValues hread hvalues).numbered.shortened _

/-! ## One entry more -/

theorem entriesFaults_append (previous : Numbering) (values others : List (Option String)) :
    entriesFaults previous (values ++ others) =
      entriesFaults previous values ++ entriesFaults (values.foldl numbering previous) others := by
  induction values generalizing previous with
  | nil => rfl
  | cons value rest ih =>
    rw [List.cons_append, entriesFaults, ih, ← List.append_assoc]
    rfl

/-- The walk over the entries counts on from its last value. -/
theorem standing_of_enumValues {options : Options} {previous : Option EnumValue}
    {entries : List Declaration.Entry} {values : List EnumValue}
    (h : (enumValues options previous entries).result = .ok values) :
    (entries.map (·.value)).foldl numbering (standing previous) =
      standing (values.getLast?.or previous) := by
  induction entries generalizing previous values with
  | nil =>
    cases h
    rfl
  | cons e rest ih =>
    rw [enumValues, result_bind] at h
    obtain ⟨v, hv, h⟩ := bind_eq_ok_iff.1 h
    rw [result_bind] at h
    obtain ⟨others, hothers, h⟩ := bind_eq_ok_iff.1 h
    cases h
    rw [List.map_cons, List.foldl_cons, ← (standing_of_enumValue hv).1, ih hothers,
      List.getLast?_cons]
    cases others.getLast? <;> rfl

/-- The other definition has more entries at the end of the enum in this place, and the first of
them declares no number. -/
structure GoesOn (place : Nat) (later : List Element) (root other : Element) : Prop where
  name : other.name = root.name
  messages : messageElements other = messageElements root
  enums : ∃ before e entry after, before.length = place ∧
    enumElements root = before ++ e :: after ∧
    enumElements other = before ++ e.addChildren (entry :: later) :: after ∧
    entry.attribute? "value" = none ∧
    ∀ c ∈ entry :: later, c.name = "entry" ∧ (c.attribute? "name").isSome

theorem childrenWith_addChildren {e : Element} {children : List Element} {kind : String}
    (h : ∀ c ∈ children, c.name = kind) :
    (e.addChildren children).childrenWith kind = e.childrenWith kind ++ children := by
  show (e.children ++ children).filter _ = _
  rw [List.filter_append, List.filter_eq_self.2 fun c hc => beq_iff_eq.2 (h c hc)]
  rfl

theorem enumMissing_addChildren {e : Element} {entries : List Element}
    (hentries : ∀ c ∈ entries, c.name = "entry" ∧ (c.attribute? "name").isSome)
    (h : enumMissing e = []) : enumMissing (e.addChildren entries) = [] := by
  obtain ⟨hnames, henum⟩ := enumMissing_eq_nil_iff.1 h
  refine enumMissing_eq_nil_iff.2 ⟨?_, henum⟩
  rw [childrenWith_addChildren fun c hc => (hentries c hc).1]
  intro c hc
  rcases List.mem_append.1 hc with hc | hc
  · exact hnames c hc
  · exact (hentries c hc).2

/-- What can be wrong with the entries that follow once the first of them is counted. -/
def laterFaults (last : Option EnumValue) (later : List Element) : List CompileError :=
  entriesFaults (numbering (standing last) none) (later.map (·.attribute? "value"))

/-- What is wrong with the numbers is what is wrong with the new entries, counted from the last
value. -/
theorem numberFaults_addChildren {options : Options} {e entry : Element} {later : List Element}
    {x : Enumeration} (hx : enumOf options e = .ok x) (hnone : numberFaults e = [])
    (hvalue : entry.attribute? "value" = none) (hentries : ∀ c ∈ entry :: later, c.name = "entry") :
    numberFaults (e.addChildren (entry :: later)) =
      entryFaults (standing x.values.getLast?) none ++ laterFaults x.values.getLast? later := by
  obtain ⟨entries, hread, hvalues⟩ := values_of_enumOf hx
  have hdeclared : entries.map (·.value) = entryValues e :=
    map_of_mapM (fun _ _ _ => Declaration.value_of_entry) hread
  have hlast := standing_of_enumValues hvalues
  rw [hdeclared, Option.or_none] at hlast
  have hcut : entryValues (e.addChildren (entry :: later)) =
      entryValues e ++ none :: later.map (·.attribute? "value") := by
    rw [entryValues, childrenWith_addChildren hentries, List.map_append, List.map_cons, hvalue]
    rfl
  unfold numberFaults at hnone ⊢
  rw [hcut, entriesFaults_append, hnone, List.nil_append, entriesFaults, laterFaults, ← hlast]
  rfl

/-- The first new entry is wrong when it would have to go on from the greatest number. -/
theorem entryFaults_standing (last : Option EnumValue) :
    (∀ v, last = some v → v.value = greatest →
      entryFaults (standing last) none =
        [.invalidNumber "entry" "value" (v.sourceValue ++ " + 1")]) ∧
    ((∀ v, last = some v → v.value ≠ greatest) → entryFaults (standing last) none = []) := by
  cases last with
  | none => exact ⟨by simp, fun _ => rfl⟩
  | some v =>
    constructor
    · rintro w hw hgreatest
      cases hw
      exact if_pos hgreatest
    · intro h
      exact if_neg (h v rfl)

theorem standing_shortenNames (x : Enumeration) :
    standing x.shortenNames.values.getLast? = standing x.values.getLast? := by
  show standing (x.values.map _).getLast? = _
  rw [List.getLast?_map]
  cases x.values.getLast? <;> rfl

/-- Where the rest is accepted, the faults can only be those of the new entries. -/
theorem GoesOn.fails {options : Options} {name : String} {place : Nat} {later : List Element}
    {root other : Element} {d : MavDialect.Dialect} (h : GoesOn place later root other)
    (hd : compile options name root = .ok d) :
    ∃ x, d.enums[place]? = some x ∧
      Fails (compile options name other)
        (entryFaults (standing x.values.getLast?) none ++ laterFaults x.values.getLast? later) := by
  obtain ⟨before, e, entry, after, hplace, hroot, hother, hvalue, hentries⟩ := h.enums
  have hnone := (fails_compile options name root).ok_iff.1 ⟨d, hd⟩
  obtain ⟨_, fullEnums, allMessages, henums, _, rfl⟩ := compile_eq_ok_iff.1 hd
  rw [hroot] at henums
  obtain ⟨bs, x, cs, hbs, hx, _, rfl⟩ := mapM_middle_eq_ok_iff.1 henums
  have hlength : bs.length = place := by
    rw [← hplace, (mapM_eq_ok_iff_forall₂.1 hbs).length_eq]
  refine ⟨x.shortenNames, ?_, ?_⟩
  · show ((bs ++ x :: cs).map Enumeration.shortenNames)[place]? = _
    simp [← hlength]
  · unfold all at hnone
    simp only [List.append_eq_nil_iff, sectionsMissing_eq_nil_iff, hroot, List.flatMap_append,
      List.flatMap_cons] at hnone
    obtain ⟨⟨⟨hrootName, ⟨hmissingBefore, hmissingE, hmissingAfter⟩, hmissingMessages⟩,
      hnumbersBefore, hnumbersE, hnumbersAfter⟩, hmessages⟩ := hnone
    have hrootFaults : rootFaults other = [] := by
      unfold rootFaults at hrootName ⊢
      rwa [h.name]
    have hmissing : other.children.flatMap sectionMissing = [] := by
      rw [sectionsMissing_eq_nil_iff, h.messages, hother]
      refine ⟨?_, hmissingMessages⟩
      rw [List.flatMap_append, List.flatMap_cons, hmissingBefore, hmissingAfter,
        enumMissing_addChildren hentries hmissingE]
      rfl
    have hfaults : all other =
        entryFaults (standing x.values.getLast?) none ++ laterFaults x.values.getLast? later := by
      unfold all
      rw [hrootFaults, hmissing, h.messages, hmessages, hother, List.flatMap_append,
        List.flatMap_cons, hnumbersBefore, hnumbersAfter,
        numberFaults_addChildren hx hnumbersE hvalue fun c hc => (hentries c hc).1]
      simp
    rw [laterFaults, standing_shortenNames, ← laterFaults, ← hfaults]
    exact fails_compile options name other

/-- In every dialect that is compiled, the values of each enum are those of its entries in order.
Declared numbers are read off their texts, the others count on from the value before or start at 0,
and the text kept with a number is read as that number.  Where an entry without a number follows,
the definition is refused at this entry when the last number is the greatest, whatever comes later,
and is not refused when it is another. -/
theorem entries_are_counted_up_to_the_greatest_number (options : Options) (name : String)
    (root : Element) (d : MavDialect.Dialect) (h : compile options name root = .ok d) :
    List.Forall₂ (fun e x => Numbered none (e.childrenWith "entry") x.values)
      (enumElements root) d.enums ∧
    ∀ place later other, GoesOn place later root other →
      ∃ x, d.enums[place]? = some x ∧
        (∀ v, x.values.getLast? = some v → v.value = 2 ^ 127 - 1 →
          compile options name other =
            .error (.invalidNumber "entry" "value" (v.sourceValue ++ " + 1"))) ∧
        ((∀ v, x.values.getLast? = some v → v.value ≠ 2 ^ 127 - 1) → later = [] →
          ∃ more, compile options name other = .ok more) := by
  constructor
  · obtain ⟨_, fullEnums, _, henums, _, rfl⟩ := compile_eq_ok_iff.1 h
    exact List.forall₂_map_right_iff.2
      ((mapM_eq_ok_iff_forall₂.1 henums).imp fun _ _ => numbered_of_enumOf)
  · intro place later other hother
    obtain ⟨x, hx, hfails⟩ := hother.fails h
    obtain ⟨hrefused, hcounted⟩ := entryFaults_standing x.values.getLast?
    rw [greatest_eq] at hrefused hcounted
    refine ⟨x, hx, fun v hv hgreatest => ?_, fun hother hlater => ?_⟩
    · rw [hrefused v hv hgreatest] at hfails
      exact (hfails.error_iff _).2 rfl
    · rw [hcounted hother, hlater] at hfails
      exact hfails.ok_iff.2 rfl

/-- An enum that is declared in several notations and ends with the greatest number. -/
def enumToTheEnd : Element :=
  .ofParts "enum" [("name", "LIMIT")]
    [.ofParts "entry" [("name", "LIMIT_FIRST")] [],
      .ofParts "entry" [("name", "LIMIT_LOW"), ("value", "0b-101")] [],
      .ofParts "entry" [("name", "LIMIT_NEXT")] [],
      .ofParts "entry"
        [("name", "LIMIT_HIGH"), ("value", " 0x7FFFFFFFFFFFFFFFFFFFFFFFFFFFFFFE ")] [],
      .ofParts "entry" [("name", "LIMIT_LAST")] []]

theorem counting_stops_at_the_greatest_number :
    let past := .ofParts "entry" [("name", "LIMIT_PAST")] []
    let later := .ofParts "entry" [("name", "LIMIT_ZERO"), ("value", "0")] []
    ∃ d, compile {} "sample" (onlyEnum enumToTheEnd) = .ok d ∧
      d.enums.map (fun x => x.values.map (·.value)) = [[0, -5, -4, 2 ^ 127 - 2, 2 ^ 127 - 1]] ∧
      List.Forall₂ (fun e x => Numbered none (e.childrenWith "entry") x.values)
        [enumToTheEnd] d.enums ∧
      compile {} "sample" (onlyEnum (enumToTheEnd.addChildren [past, later])) =
        .error (.invalidNumber "entry" "value" "170141183460469231731687303715884105727 + 1") := by
  intro past later
  have hcompile : compile {} "sample" (onlyEnum enumToTheEnd) = .ok _ := rfl
  have hgoesOn : GoesOn 0 [later] (onlyEnum enumToTheEnd)
      (onlyEnum (enumToTheEnd.addChildren [past, later])) :=
    ⟨rfl, rfl, [], enumToTheEnd, past, [], rfl, rfl, rfl, rfl, by decide⟩
  obtain ⟨hnumbered, hend⟩ := entries_are_counted_up_to_the_greatest_number {} "sample" _ _ hcompile
  obtain ⟨x, hx, hrefused, _⟩ := hend 0 [later] _ hgoesOn
  cases hx
  exact ⟨_, hcompile, by decide, hnumbered, hrefused _ rfl (by decide)⟩

end Compile

end MavDialect
