-- Declared names that are treated specially: the enum whose values are commands, and the two
-- messages that carry commands.  A class name of two words comes from few names: the words in lower
-- case with one separator between them and at most one before them.  So the law is an inverse
-- image, letter by letter: each small letter comes from itself, and each capital from a letter
-- after a separator.
import MavDialect.Proofs.JoinedNames
import MavDialect.Proofs.MirroredEnum
import MavDialect.Proofs.MirroredMessage

namespace MavDialect

namespace Text

variable {c d x : Char} {cs before : List Char} {t : List Char}

/-! ## Letters -/

/-- The characters whose upper case is `x` alone, `x` left out. -/
def smallsOf (x : Char) : List Char :=
  ((origins upperRuns upperExpansions x.toNat).map Char.ofNat).filter fun c => upper c = [x]

/-- The character is found in no upper case. -/
@[mk_iff]
structure Small (x : Char) : Prop where
  ne_null : x ≠ '\x00'
  no_origin : origins upperRuns upperExpansions x.toNat = []
  changed : upper x ≠ [x]

instance (x : Char) : Decidable (Small x) := decidable_of_iff _ (small_iff x).symm

/-- The character is found in no lower case, and an upper case that starts with it ends there. -/
@[mk_iff]
structure Capital (x : Char) : Prop where
  ne_null : x ≠ '\x00'
  no_origin : origins lowerRuns lowerExpansions x.toNat = []
  changed : lower x ≠ [x]
  upper_eq : upper x = [x]
  alone : ∀ n ∈ origins upperRuns upperExpansions x.toNat,
    (upper (Char.ofNat n)).head? = some x → upper (Char.ofNat n) = [x]
  smalls : (smallsOf x).Forall Small

instance (x : Char) : Decidable (Capital x) := decidable_of_iff _ (capital_iff x).symm

theorem Small.not_mem_upper (h : Small x) (c : Char) : x ∉ upper c :=
  not_mem_mapCase h.ne_null h.no_origin h.changed c

theorem upper_of_mem_smallsOf (h : c ∈ smallsOf x) : upper c = [x] := by
  simpa using (List.mem_filter.1 h).2

namespace Capital

theorem not_mem_lowerAll (h : Capital x) (cs : List Char) : x ∉ lowerAll cs := by
  intro hmem
  obtain ⟨c, _, hlower | rfl | rfl⟩ := exists_of_mem_lowerAfter hmem
  · exact not_mem_mapCase h.ne_null h.no_origin h.changed c hlower
  · exact absurd h.upper_eq (by decide +kernel)
  · exact absurd h.upper_eq (by decide +kernel)

theorem small_of_mem (h : Capital x) (hc : c ∈ smallsOf x) : Small c :=
  List.forall_iff_forall_mem.1 h.smalls c hc

/-- An upper case that starts with the capital is the capital. -/
theorem cases_of_upper (h : Capital x) (hupper : upper c = x :: t) :
    t = [] ∧ (c = x ∨ c ∈ smallsOf x) := by
  have hmem : x ∈ upper c := by simp [hupper]
  rcases mem_mapCase h.ne_null hmem with ⟨rfl, _⟩ | horigin
  · have hself := h.upper_eq
    rw [hupper] at hself
    exact ⟨(List.cons.inj hself).2, .inl rfl⟩
  · have halone := h.alone c.toNat horigin
    rw [Char.ofNat_toNat, hupper] at halone
    have ht : t = [] := (List.cons.inj (halone rfl)).2
    subst ht
    refine ⟨rfl, .inr (List.mem_filter.2 ⟨?_, by simpa using hupper⟩)⟩
    exact List.mem_map.2 ⟨c.toNat, horigin, Char.ofNat_toNat c⟩

end Capital

end Text

open Text

namespace Naming

variable {c x y : Char} {cs w v front rest : List Char}

/-! ## Humps, taken back -/

/-- The first character of a text with humps was there before, or it is made of the character after
a separator. -/
theorem humpSeparators_eq_cons (h : humpSeparators cs = x :: rest) :
    (∃ after, cs = x :: after ∧ humpSeparators after = rest) ∨
      ∃ s c after t, isSeparator s = true ∧ cs = s :: c :: after ∧ upper c = x :: t ∧
        t ++ humpSeparators after = rest := by
  fun_cases humpSeparators cs with
  | case1 => cases h
  | case2 c =>
    cases h
    exact .inl ⟨[], rfl, rfl⟩
  | case3 s c after hhump =>
    rw [humpSeparators, if_pos hhump] at h
    rw [Bool.and_eq_true] at hhump
    cases hupper : upper c with
    | nil => exact absurd hupper (upper_ne_nil c)
    | cons d t =>
      rw [hupper] at h
      obtain ⟨rfl, hrest⟩ := List.cons.inj h
      exact .inr ⟨s, c, after, t, hhump.1, rfl, hupper, hrest⟩
  | case4 s c after hkept =>
    rw [humpSeparators, if_neg hkept] at h
    obtain ⟨rfl, hrest⟩ := List.cons.inj h
    exact .inl ⟨c :: after, rfl, hrest⟩

theorem humpSeparators_eq_small (hx : Small x) (h : humpSeparators cs = x :: rest) :
    ∃ after, cs = x :: after ∧ humpSeparators after = rest := by
  rcases humpSeparators_eq_cons h with hkept | ⟨_, c, _, t, _, _, hupper, _⟩
  · exact hkept
  · exact absurd (by simp [hupper]) (hx.not_mem_upper c)

theorem humpSeparators_eq_smalls (hw : ∀ c ∈ w, Small c) (h : humpSeparators cs = w ++ rest) :
    ∃ after, cs = w ++ after ∧ humpSeparators after = rest := by
  induction w generalizing cs with
  | nil => exact ⟨cs, rfl, h⟩
  | cons c w ih =>
    obtain ⟨hc, hw⟩ := List.forall_mem_cons.1 hw
    obtain ⟨after, rfl, hafter⟩ := humpSeparators_eq_small hc h
    obtain ⟨last, rfl, hlast⟩ := ih hw hafter
    exact ⟨last, rfl, hlast⟩

/-- A capital that was not there before is made of a small letter after a separator. -/
theorem humpSeparators_eq_capital (hx : Capital x) (hcs : x ∉ cs)
    (h : humpSeparators cs = x :: rest) :
    ∃ s, isSeparator s = true ∧ ∃ c ∈ smallsOf x, ∃ after,
      cs = s :: c :: after ∧ humpSeparators after = rest := by
  rcases humpSeparators_eq_cons h with ⟨after, rfl, _⟩ | ⟨s, c, after, t, hs, rfl, hupper, hrest⟩
  · simp at hcs
  · obtain ⟨rfl, rfl | hc⟩ := hx.cases_of_upper hupper
    · simp at hcs
    · exact ⟨s, hs, c, hc, after, rfl, hrest⟩

/-- Nothing, or one separator. -/
def Lead (cs : List Char) : Prop := cs = [] ∨ ∃ s, isSeparator s = true ∧ cs = [s]

/-- A capital at the start of a class is made of the first letter, which may have a separator before
it. -/
theorem upperFirst_humpSeparators_eq_capital (hx : Capital x) (hcs : x ∉ cs)
    (h : upperFirst (humpSeparators cs) = x :: rest) :
    ∃ lead, Lead lead ∧ ∃ c ∈ smallsOf x, ∃ after,
      cs = lead ++ c :: after ∧ humpSeparators after = rest := by
  cases hhumped : humpSeparators cs with
  | nil => simp [hhumped, upperFirst] at h
  | cons d ds =>
    rw [hhumped] at h
    cases hupper : upper d with
    | nil => exact absurd hupper (upper_ne_nil d)
    | cons e t =>
      rw [upperFirst, hupper] at h
      obtain ⟨rfl, hrest⟩ := List.cons.inj h
      obtain ⟨rfl, rfl | hd⟩ := hx.cases_of_upper hupper
      · -- the capital was made by a hump
        obtain ⟨s, hs, c, hc, after, rfl, hafter⟩ := humpSeparators_eq_capital hx hcs hhumped
        exact ⟨[s], .inr ⟨s, hs, rfl⟩, c, hc, after, rfl, hafter.trans hrest⟩
      · obtain ⟨after, rfl, hafter⟩ := humpSeparators_eq_small (hx.small_of_mem hd) hhumped
        exact ⟨[], .inl rfl, d, hd, after, rfl, hafter.trans hrest⟩

theorem humpSeparators_of_no_separator (h : ∀ c ∈ cs, isSeparator c = false) :
    humpSeparators cs = cs := by
  induction cs with
  | nil => rfl
  | cons c cs ih =>
    obtain ⟨hc, hcs⟩ := List.forall_mem_cons.1 h
    rw [humpSeparators_cons hc, ih hcs]

/-! ## Classes of two words -/

/-- Two words with one separator between them, and at most one before them. -/
def TwoWords (first second cs : List Char) : Prop :=
  ∃ lead mark, Lead lead ∧ isSeparator mark = true ∧ cs = lead ++ first ++ mark :: second

/-- A letter of a word in lower case. -/
def WordLetter (c : Char) : Prop := Small c ∧ StartsWord c

instance (c : Char) : Decidable (WordLetter c) := inferInstanceAs (Decidable (_ ∧ _))

theorem humpSeparators_twoWords {mark : Char} {cs ds : List Char} (hcs : ∀ c ∈ cs, StartsWord c)
    (hds : ∀ c ∈ ds, StartsWord c) (hne : ds ≠ []) (hmark : isSeparator mark = true) :
    humpSeparators (cs ++ mark :: ds) = cs ++ upperFirst ds := by
  have hplain {l : List Char} (hl : ∀ c ∈ l, StartsWord c) : humpSeparators l = l :=
    humpSeparators_of_no_separator fun c hc => (hl c hc).not_isSeparator
  have hlast : ∀ c ∈ cs.getLast?, isSeparator c = false := fun c hc =>
    (hcs c (List.mem_of_getLast? hc)).not_isSeparator
  have hhead : ∃ c ∈ ds.head?, StartsWord c := by
    obtain ⟨c, rest, rfl⟩ := List.exists_cons_of_ne_nil hne
    exact ⟨c, rfl, hds c List.mem_cons_self⟩
  rw [humpSeparators_append hlast hmark hhead, hplain hcs, hplain hds]

/-- A class of two words is made of exactly the names that are these words in lower case, each of
which starts with a character that has its capital as its upper case. -/
theorem className_eq_iff {text : String} (htext : text.toList = x :: (w ++ y :: v))
    (hx : Capital x) (hy : Capital y) (hstart : (smallsOf x ++ smallsOf y).Forall StartsWord)
    (hw : (w ++ v).Forall WordLetter) (name : String) :
    className name = text ↔
      ∃ c ∈ smallsOf x, ∃ d ∈ smallsOf y, TwoWords (c :: w) (d :: v) (lowerAll name.toList) := by
  rw [List.forall_iff_forall_mem, List.forall_mem_append] at hstart hw
  unfold className
  rw [← String.toList_inj, htext, String.toList_ofList]
  generalize hlower : lowerAll name.toList = cs
  have hxcs : x ∉ cs := hlower ▸ hx.not_mem_lowerAll name.toList
  have hycs : y ∉ cs := hlower ▸ hy.not_mem_lowerAll name.toList
  constructor
  · intro h
    obtain ⟨lead, hlead, c, hc, after, rfl, hafter⟩ :=
      upperFirst_humpSeparators_eq_capital hx hxcs h
    obtain ⟨later, rfl, hlater⟩ := humpSeparators_eq_smalls (fun c hc => (hw.1 c hc).1) hafter
    have hylater : y ∉ later := fun hmem => hycs (by simp [hmem])
    obtain ⟨mark, hmark, d, hd, last, rfl, hlast⟩ := humpSeparators_eq_capital hy hylater hlater
    rw [← List.append_nil v] at hlast
    obtain ⟨none, rfl, hnone⟩ := humpSeparators_eq_smalls (fun c hc => (hw.2 c hc).1) hlast
    rw [humpSeparators_eq_nil_iff] at hnone
    subst hnone
    exact ⟨c, hc, d, hd, lead, mark, hlead, hmark, by simp⟩
  · rintro ⟨c, hc, d, hd, lead, mark, hlead, hmark, rfl⟩
    have hfirst : ∀ e ∈ c :: w, StartsWord e :=
      List.forall_mem_cons.2 ⟨hstart.1 c hc, fun e he => (hw.1 e he).2⟩
    have hsecond : ∀ e ∈ d :: v, StartsWord e :=
      List.forall_mem_cons.2 ⟨hstart.2 d hd, fun e he => (hw.2 e he).2⟩
    have hhumped : humpSeparators ((c :: w) ++ mark :: d :: v) = c :: (w ++ y :: v) := by
      rw [humpSeparators_twoWords hfirst hsecond (by simp) hmark, upperFirst,
        upper_of_mem_smallsOf hd]
      rfl
    rcases hlead with rfl | ⟨s, hs, rfl⟩
    · rw [List.nil_append, hhumped, upperFirst, upper_of_mem_smallsOf hc]
      rfl
    · have hword : ∃ e ∈ ((c :: w) ++ mark :: d :: v).head?, StartsWord e :=
        ⟨c, rfl, hstart.1 c hc⟩
      rw [List.append_assoc, List.singleton_append, humpSeparators_word hs hword, hhumped,
        upperFirst, upper_of_mem_smallsOf hc, List.singleton_append, upperFirst, hx.upper_eq]
      rfl

/-! ## The three classes -/

/-- The declared names of the enum whose values are commands. -/
def NamesCommandEnum (name : String) : Prop :=
  TwoWords "mav".toList "cmd".toList (lowerAll name.toList)

/-- The declared names of the carrier with plain parameters. -/
def NamesLongCarrier (name : String) : Prop :=
  TwoWords "command".toList "long".toList (lowerAll name.toList)

/-- The declared names of the carrier with scaled positions.  The dotless `ı` has the upper case of
`i`. -/
def NamesIntCarrier (name : String) : Prop :=
  TwoWords "command".toList "int".toList (lowerAll name.toList) ∨
    TwoWords "command".toList "ınt".toList (lowerAll name.toList)

theorem smallsOf_capitals : smallsOf 'M' = ['m'] ∧ smallsOf 'C' = ['c'] ∧ smallsOf 'L' = ['l'] ∧
    smallsOf 'I' = ['i', 'ı'] := by decide +kernel

theorem className_eq_commandEnum_iff (name : String) :
    className name = Command.enumClass ↔ NamesCommandEnum name := by
  have htext : Command.enumClass.toList = 'M' :: ("av".toList ++ 'C' :: "md".toList) := by decide
  obtain ⟨hm, hc, _⟩ := smallsOf_capitals
  rw [className_eq_iff htext (by decide +kernel) (by decide +kernel) (by decide +kernel)
    (by decide +kernel), hm, hc]
  simp [NamesCommandEnum]

theorem className_eq_longCarrier_iff (name : String) :
    className name = Message.longCarrier ↔ NamesLongCarrier name := by
  have htext : Message.longCarrier.toList = 'C' :: ("ommand".toList ++ 'L' :: "ong".toList) := by
    decide
  obtain ⟨_, hc, hl, _⟩ := smallsOf_capitals
  rw [className_eq_iff htext (by decide +kernel) (by decide +kernel) (by decide +kernel)
    (by decide +kernel), hc, hl]
  simp [NamesLongCarrier]

theorem className_eq_intCarrier_iff (name : String) :
    className name = Message.intCarrier ↔ NamesIntCarrier name := by
  have htext : Message.intCarrier.toList = 'C' :: ("ommand".toList ++ 'I' :: "nt".toList) := by
    decide
  obtain ⟨_, hc, _, hi⟩ := smallsOf_capitals
  rw [className_eq_iff htext (by decide +kernel) (by decide +kernel) (by decide +kernel)
    (by decide +kernel), hc, hi]
  simp [NamesIntCarrier]

end Naming

namespace Compile

open Naming Outcome

/-! ## What a dialect makes of the names -/

variable {options : Options} {name : String} {root : Element} {d : MavDialect.Dialect}

/-- A command is made of a value of an enum that is declared under a name for commands. -/
theorem exists_enum_of_mem_commands (h : compile options name root = .ok d) {c : Command}
    (hc : c ∈ d.commands) :
    ∃ x ∈ d.enums, NamesCommandEnum x.sourceName ∧ ∃ v ∈ x.values, Command.ofValue v = c := by
  have hclasses := forall_mem_of_forall₂ (mirrors_enums_of_compile h)
    (q := fun x => x.name = className x.sourceName) fun _ _ hone => hone.name
  rw [commands_of_compile h] at hc
  cases hfirst : d.enums.find? (·.name == Command.enumClass) with
  | none => simp [hfirst] at hc
  | some x =>
    rw [hfirst] at hc
    obtain ⟨v, hv, hcv⟩ := List.mem_map.1 hc
    have hx := List.mem_of_find?_eq_some hfirst
    have hname : x.name = Command.enumClass := by simpa using List.find?_some hfirst
    refine ⟨x, hx, ?_, v, (List.mem_filter.1 hv).1, hcv⟩
    rw [← className_eq_commandEnum_iff, ← hclasses x hx, hname]

/-- A message with a field under another name than its own is declared under the name of a
carrier. -/
theorem carrier_of_renamed (h : compile options name root = .ok d) {m : Message}
    (hm : m ∈ d.messages) {f : Field} (hf : f ∈ m.fields) (hname : f.name ≠ camel f.sourceName) :
    NamesLongCarrier m.sourceName ∨ NamesIntCarrier m.sourceName := by
  obtain ⟨hclass, hfields⟩ := forall_mem_of_forall₂ (mirrors_of_compile h)
    (q := fun m => m.name = className m.sourceName ∧
      ∀ f ∈ m.fields, f.name = Message.carrierFieldName m.name (camel f.sourceName))
    (fun _ _ hone => ⟨hone.name, forall_mem_of_forall₂ hone.fields fun _ _ hfield => hfield.name⟩)
    m hm
  rw [hfields f hf, Message.carrierFieldName] at hname
  rw [← className_eq_longCarrier_iff, ← className_eq_intCarrier_iff, ← hclass]
  by_cases hint : m.name = Message.intCarrier
  · exact .inr hint
  · by_cases hlong : m.name = Message.longCarrier
    · exact .inl hlong
    · rw [if_neg hint, if_neg hlong] at hname
      exact absurd rfl hname

/-- The three distinguished classes come from their two words in lower case, with one separator
between them and at most one before them, and from no other name.  So in a dialect only an enum of
such a name has commands, and only a message of such a name has its fields renamed. -/
theorem only_their_two_words_make_the_distinguished_classes :
    (∀ s, (className s = "MavCmd" ↔ NamesCommandEnum s) ∧
      (className s = "CommandLong" ↔ NamesLongCarrier s) ∧
      (className s = "CommandInt" ↔ NamesIntCarrier s)) ∧
    ∀ options name root d, compile options name root = .ok d →
      (∀ c ∈ d.commands, ∃ x ∈ d.enums, NamesCommandEnum x.sourceName ∧
        ∃ v ∈ x.values, Command.ofValue v = c) ∧
      ∀ m ∈ d.messages, (∃ f ∈ m.fields, f.name ≠ camel f.sourceName) →
        NamesLongCarrier m.sourceName ∨ NamesIntCarrier m.sourceName := by
  refine ⟨fun s => ⟨className_eq_commandEnum_iff s, className_eq_longCarrier_iff s,
    className_eq_intCarrier_iff s⟩, fun options name root d h => ⟨?_, ?_⟩⟩
  · exact fun c hc => exists_enum_of_mem_commands h hc
  · rintro m hm ⟨f, hf, hname⟩
    exact carrier_of_renamed h hm hf hname

/-- Enums and messages under names that are close to the distinguished ones. -/
def closeNames : Element :=
  .ofParts "mavlink" []
    [.ofParts "enums" []
      [.ofParts "enum" [("name", "MAV__CMD")] [.ofParts "entry" [("name", "FIRST")] []],
        .ofParts "enum" [("name", "-Mav_cMD")] [.ofParts "entry" [("name", "SECOND")] []]],
      .ofParts "messages" []
        [.ofParts "message" [("id", "1"), ("name", "COMMAND-ıNT")] [declaredField "x" "int8_t"],
          .ofParts "message" [("id", "2"), ("name", "COMMAND_İNT")] [declaredField "x" "int8_t"]]]

theorem a_doubled_separator_and_a_dotted_capital_are_not_enough :
    ∃ d, compile {} "sample" closeNames = .ok d ∧
      d.enums.map (·.name) = ["Mav_cmd", "MavCmd"] ∧
      d.commands.map (·.sourceName) = ["SECOND"] ∧
      d.messages.map (fun m => m.fields.map (·.name)) = [["_param5"], ["x"]] ∧
      (∀ c ∈ d.commands, ∃ x ∈ d.enums, NamesCommandEnum x.sourceName ∧
        ∃ v ∈ x.values, Command.ofValue v = c) ∧
      ∃ m ∈ d.messages, (∃ f ∈ m.fields, f.name ≠ camel f.sourceName) ∧
        (NamesLongCarrier m.sourceName ∨ NamesIntCarrier m.sourceName) := by
  obtain ⟨d, hcompile, henums, hsources, hfields, m, hm, hrenamed⟩ :
      ∃ d, compile {} "sample" closeNames = .ok d ∧
        d.enums.map (·.name) = ["Mav_cmd", "MavCmd"] ∧
        d.commands.map (·.sourceName) = ["SECOND"] ∧
        d.messages.map (fun m => m.fields.map (·.name)) = [["_param5"], ["x"]] ∧
        ∃ m ∈ d.messages, ∃ f ∈ m.fields, f.name ≠ camel f.sourceName :=
    ⟨_, rfl, by decide +kernel, by decide +kernel, by decide +kernel, by decide +kernel⟩
  obtain ⟨_, hdialect⟩ := only_their_two_words_make_the_distinguished_classes
  obtain ⟨hcommands, hmessages⟩ := hdialect {} "sample" closeNames d hcompile
  exact ⟨d, hcompile, henums, hsources, hfields, hcommands, m, hm, hrenamed,
    hmessages m hm hrenamed⟩

end Compile

end MavDialect
