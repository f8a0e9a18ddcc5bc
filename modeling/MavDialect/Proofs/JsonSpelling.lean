-- Standard JSON text: how a value may be spelled, whoever writes it.  Blanks may stand around every
-- token, and a character of a string may stand for itself or be escaped in several ways.  The
-- values are those that have no fraction and no string without text.
-- Law: both ways of printing such a value spell it.
import MavDialect.Json.Printer
import MavDialect.Json.Token

namespace MavDialect.Json

def Blank (cs : List Char) : Prop := ∀ c ∈ cs, isSpace c = true

theorem blank_nil : Blank [] := by simp [Blank]

theorem blank_newLine (level : Nat) : Blank (newLine level) := by
  intro c hc
  rcases List.mem_cons.1 hc with rfl | hc
  · rfl
  · rw [(List.mem_replicate.1 hc).2]
    rfl

/-! ## Strings -/

/-- The spellings of one character in a string: itself, its escape of one letter, its code in four
hexadecimal digits, or a pair of surrogates. -/
inductive Spelling : Char → List Char → Prop
  | plain {c : Char} (hlow : ' ' ≤ c) (hquote : c ≠ '"') (hback : c ≠ '\\') : Spelling c [c]
  | letter {e c : Char} (h : plainEscape? e = some c) : Spelling c ['\\', e]
  | unit {k l m n : Char} {code : Nat} (h : Text.digits? 16 [k, l, m, n] = some code)
      (hcode : isSurrogate code = false) : Spelling (Char.ofNat code) ['\\', 'u', k, l, m, n]
  | pair {k l m n p q r s : Char} {high low : Nat}
      (hhigh : Text.digits? 16 [k, l, m, n] = some high)
      (hlow : Text.digits? 16 [p, q, r, s] = some low)
      (hfirst : 0xD800 ≤ high ∧ high < 0xDC00) (hsecond : 0xDC00 ≤ low ∧ low ≤ 0xDFFF) :
      Spelling (Char.ofNat (0x10000 + (high - 0xD800) * 0x400 + (low - 0xDC00)))
        ['\\', 'u', k, l, m, n, '\\', 'u', p, q, r, s]

/-- The spellings of a text between its quotes. -/
inductive Spellings : List Char → List Char → Prop
  | nil : Spellings [] []
  | cons {c : Char} {piece text body : List Char} (hc : Spelling c piece)
      (h : Spellings text body) : Spellings (c :: text) (piece ++ body)

theorem spelling_hexEscape {c : Char} (h : c < ' ') : Spelling c (hexEscape c) := by
  have hcode : ∀ n : Fin 32, Text.digits? 16
      ['0', '0', Nat.digitChar (n / 16), Nat.digitChar (n % 16)] = some n.val ∧
        isSurrogate n = false := by
    decide
  have hlt : c.toNat < 32 := h
  obtain ⟨hdigits, hplain⟩ := hcode ⟨c.toNat, hlt⟩
  have hspelling := Spelling.unit hdigits hplain
  rwa [Char.ofNat_toNat] at hspelling

theorem spelling_escape (c : Char) : Spelling c (escape c) := by
  unfold escape
  iterate 7
    split
    · subst c
      exact .letter rfl
  split
  · rename_i hlow
    exact spelling_hexEscape hlow
  · rename_i hquote hback _ _ _ _ _ hlow
    exact .plain (Std.not_lt.1 hlow) hquote hback

theorem spellings_escape (text : List Char) : Spellings text (text.flatMap escape) := by
  induction text with
  | nil => exact .nil
  | cons c text ih => exact .cons (spelling_escape c) ih

/-! ## Values -/

/-- The spellings of a key, with the blanks before and after it. -/
inductive KeySpelling (name : String) : List Char → Prop
  | mk {before body after : List Char} (hbefore : Blank before)
      (h : Spellings name.toList body) (hafter : Blank after) :
      KeySpelling name (before ++ '"' :: (body ++ '"' :: after))

/-- The text is a spelling of the value. -/
inductive Written : Json → List Char → Prop
  | null : Written null ['n', 'u', 'l', 'l']
  | yes : Written (bool true) ['t', 'r', 'u', 'e']
  | no : Written (bool false) ['f', 'a', 'l', 's', 'e']
  | int (n : Int) : Written (int n) (Text.decimal n)
  | string {text : String} {body : List Char} (h : Spellings text.toList body) :
      Written (string text) ('"' :: (body ++ ['"']))
  | emptyArray {blank : List Char} (h : Blank blank) : Written (.array []) ('[' :: (blank ++ [']']))
  | array {parts : List (Json × List Char)} {blank : List Char} (hne : parts ≠ [])
      (h : ∀ p ∈ parts, Written p.1 p.2) (hblank : Blank blank) :
      Written (.array (parts.map (·.1)))
        ('[' :: ([','].intercalate (parts.map (·.2)) ++ (blank ++ [']'])))
  | emptyObject {blank : List Char} (h : Blank blank) :
      Written (.object []) ('\x7b' :: (blank ++ ['\x7d']))
  | object {parts : List ((String × Json) × List Char × List Char)} {blank : List Char}
      (hne : parts ≠ []) (hkeys : ∀ p ∈ parts, KeySpelling p.1.1 p.2.1)
      (h : ∀ p ∈ parts, Written p.1.2 p.2.2) (hblank : Blank blank) :
      Written (record (parts.map (·.1)))
        ('\x7b' :: ([','].intercalate (parts.map fun p => p.2.1 ++ ':' :: p.2.2) ++
          (blank ++ ['\x7d'])))
  | padded {v : Json} {before cs after : List Char} (hbefore : Blank before) (h : Written v cs)
      (hafter : Blank after) : Written v (before ++ (cs ++ after))

/-- Values that have a spelling: no number has a fraction, and every string denotes a text. -/
inductive Plain : Json → Prop
  | null : Plain null
  | bool (b : Bool) : Plain (bool b)
  | int (n : Int) : Plain (int n)
  | string (text : String) : Plain (string text)
  | array {items : List Json} (h : ∀ v ∈ items, Plain v) : Plain (.array items)
  | record {members : List (String × Json)} (h : ∀ m ∈ members, Plain m.2) : Plain (record members)

attribute [simp] Plain.null Plain.bool Plain.int Plain.string

@[simp]
theorem plain_nat (n : Nat) : Plain (nat n) := .int n

@[simp]
theorem plain_optionalString (text : Option String) : Plain (optionalString text) := by
  cases text with
  | none => exact .null
  | some text => exact .string text

@[simp]
theorem plain_strings (texts : List String) : Plain (strings texts) := by
  refine .array fun v hv => ?_
  obtain ⟨text, _, rfl⟩ := List.mem_map.1 hv
  exact .string text

/-! ## Printed values -/

@[simp]
theorem quotedOr_some (text : String) : quotedOr (some text) = quoted text.toList := rfl

theorem printItems_eq (items : List Json) :
    printItems items = [','].intercalate (items.map printCompact) := by
  induction items with
  | nil => rfl
  | cons v rest ih =>
    cases rest with
    | nil => simp [printItems]
    | cons w rest =>
      rw [printItems, ih]
      simp only [List.map_cons, List.intercalate_cons_cons, List.append_assoc,
        List.singleton_append]

theorem printMembers_eq (members : List (String × Json)) :
    printMembers (members.map fun m => (some m.1, m.2)) =
      [','].intercalate (members.map fun m => quoted m.1.toList ++ ':' :: printCompact m.2) := by
  induction members with
  | nil => rfl
  | cons m rest ih =>
    cases rest with
    | nil => simp [printMembers]
    | cons w rest =>
      simp only [List.map_cons] at ih ⊢
      rw [printMembers, ih]
      simp

theorem indentItems_eq (level : Nat) (items : List Json) :
    indentItems level items =
      [','].intercalate (items.map fun v => newLine level ++ printIndented level v) := by
  induction items with
  | nil => rfl
  | cons v rest ih =>
    cases rest with
    | nil => simp [indentItems]
    | cons w rest =>
      rw [indentItems, ih]
      simp

theorem indentMembers_eq (level : Nat) (members : List (String × Json)) :
    indentMembers level (members.map fun m => (some m.1, m.2)) =
      [','].intercalate (members.map fun m =>
        newLine level ++ quoted m.1.toList ++ ':' :: ' ' :: printIndented level m.2) := by
  induction members with
  | nil => rfl
  | cons m rest ih =>
    cases rest with
    | nil => simp [indentMembers]
    | cons w rest =>
      simp only [List.map_cons] at ih ⊢
      rw [indentMembers, ih]
      simp

theorem keySpelling_quoted (name : String) {before : List Char} (h : Blank before) :
    KeySpelling name (before ++ quoted name.toList) := by
  have hkey := KeySpelling.mk h (spellings_escape name.toList) blank_nil
  simpa [quoted] using hkey

theorem Written.after_blank {v : Json} {before cs : List Char} (hbefore : Blank before)
    (h : Written v cs) : Written v (before ++ cs) := by
  simpa using Written.padded hbefore h blank_nil

/-- An array with every item printed in the same way. -/
theorem written_items {items : List Json} (hne : items ≠ []) (text : Json → List Char)
    (h : ∀ v ∈ items, Written v (text v)) {blank : List Char} (hblank : Blank blank) :
    Written (.array items) ('[' :: ([','].intercalate (items.map text) ++ (blank ++ [']']))) := by
  have hparts : ∀ p ∈ items.map fun v => (v, text v), Written p.1 p.2 := by
    intro p hp
    obtain ⟨v, hv, rfl⟩ := List.mem_map.1 hp
    exact h v hv
  have hwritten := Written.array (by simpa using hne) hparts hblank
  simpa [Function.comp_def] using hwritten

/-- An object with every member printed in the same way. -/
theorem written_members {members : List (String × Json)} (hne : members ≠ [])
    (key : String → List Char) (text : Json → List Char)
    (hkeys : ∀ name, KeySpelling name (key name))
    (h : ∀ m ∈ members, Written m.2 (text m.2)) {blank : List Char} (hblank : Blank blank) :
    Written (record members)
      ('\x7b' :: ([','].intercalate (members.map fun m => key m.1 ++ ':' :: text m.2) ++
        (blank ++ ['\x7d']))) := by
  have hparts : ∀ p ∈ members.map fun m => (m, key m.1, text m.2), Written p.1.2 p.2.2 := by
    intro p hp
    obtain ⟨m, hm, rfl⟩ := List.mem_map.1 hp
    exact h m hm
  have hkeyParts : ∀ p ∈ members.map fun m => (m, key m.1, text m.2), KeySpelling p.1.1 p.2.1 := by
    intro p hp
    obtain ⟨m, _, rfl⟩ := List.mem_map.1 hp
    exact hkeys m.1
  have hwritten := Written.object (by simpa using hne) hkeyParts hparts hblank
  simpa [Function.comp_def] using hwritten

/-- The text in one line is a spelling of the value. -/
theorem Plain.written_compact {v : Json} (h : Plain v) : Written v (printCompact v) := by
  induction h with
  | null => exact .null
  | bool b =>
    cases b with
    | false => exact .no
    | true => exact .yes
  | int n => exact .int n
  | string text => exact .string (spellings_escape text.toList)
  | @array items _ ih =>
    cases items with
    | nil => exact .emptyArray blank_nil
    | cons v rest =>
      rw [printCompact, printItems_eq]
      exact written_items (List.cons_ne_nil v rest) printCompact ih blank_nil
  | @record members _ ih =>
    cases members with
    | nil => exact .emptyObject blank_nil
    | cons m rest =>
      rw [Json.record, printCompact, printMembers_eq]
      exact written_members (List.cons_ne_nil m rest) (fun name => quoted name.toList) printCompact
        (fun name => keySpelling_quoted name blank_nil) ih blank_nil

/-- The text over several lines is a spelling of the value. -/
theorem Plain.written_indented {v : Json} (h : Plain v) (level : Nat) :
    Written v (printIndented level v) := by
  induction h generalizing level with
  | null => exact .null
  | bool b =>
    cases b with
    | false => exact .no
    | true => exact .yes
  | int n => exact .int n
  | string text => exact .string (spellings_escape text.toList)
  | @array items _ ih =>
    cases items with
    | nil => exact .emptyArray blank_nil
    | cons v rest =>
      rw [printIndented, indentItems_eq]
      have hitems := written_items (List.cons_ne_nil v rest)
        (fun w => newLine (level + 1) ++ printIndented (level + 1) w)
        (fun w hw => (ih w hw (level + 1)).after_blank (blank_newLine (level + 1)))
        (blank_newLine level)
      simpa using hitems
  | @record members _ ih =>
    cases members with
    | nil => exact .emptyObject blank_nil
    | cons m rest =>
      have hblank : Blank [' '] := by simp [Blank, isSpace]
      have hmembers := written_members (List.cons_ne_nil m rest)
        (fun name => newLine (level + 1) ++ quoted name.toList)
        (fun w => ' ' :: printIndented (level + 1) w)
        (fun name => keySpelling_quoted name (blank_newLine (level + 1)))
        (fun n hn => (ih n hn (level + 1)).after_blank hblank) (blank_newLine level)
      have hprinted := indentMembers_eq (level + 1) (m :: rest)
      rw [List.map_cons] at hprinted
      rw [Json.record, List.map_cons, printIndented, hprinted]
      simpa [Json.record] using hmembers

end MavDialect.Json
