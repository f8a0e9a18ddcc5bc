-- The text of a dialect tells all of it.  Each kind of record writes all its fields under fixed
-- names in a fixed order, so its value has the fields in it; and a value's text can be read back.
import Mathlib.Data.List.Basic
import MavDialect.Dialect.Json
import MavDialect.Proofs.JsonReading

namespace MavDialect

namespace Json

/-! ## Values with the same parts -/

@[simp]
theorem string_inj {s t : String} : string s = string t ↔ s = t := by simp [string]

@[simp]
theorem int_inj {m n : Int} : int m = int n ↔ m = n := by simp [int]

@[simp]
theorem nat_inj {m n : Nat} : nat m = nat n ↔ m = n := by rw [nat, nat, int_inj, Int.natCast_inj]

@[simp]
theorem bool_inj {a b : Bool} : bool a = bool b ↔ a = b := by simp [bool]

@[simp]
theorem optionalString_inj {s t : Option String} :
    optionalString s = optionalString t ↔ s = t := by
  cases s <;> cases t <;> simp [optionalString, null, string]

@[simp]
theorem optionalNat_inj {m n : Option Nat} : optionalNat m = optionalNat n ↔ m = n := by
  cases m with
  | none => cases n <;> simp [optionalNat, null, nat, int]
  | some m =>
    cases n with
    | none => simp [optionalNat, null, nat, int]
    | some n => rw [optionalNat, optionalNat, nat_inj, Option.some_inj]

/-- Arrays of items that are told apart by their values. -/
theorem array_map_inj {α : Type} {f : α → Json} (hf : ∀ {a b}, f a = f b ↔ a = b) {l r : List α} :
    Json.array (l.map f) = .array (r.map f) ↔ l = r := by
  have hmap : Function.Injective f := fun _ _ h => hf.1 h
  rw [Json.array.injEq, (List.map_injective_iff.2 hmap).eq_iff]

@[simp]
theorem strings_inj {l r : List String} : strings l = strings r ↔ l = r := array_map_inj string_inj

/-- Objects are compared member by member. -/
@[simp]
theorem record_cons_inj {m n : String × Json} {l r : List (String × Json)} :
    record (m :: l) = record (n :: r) ↔ (m.1 = n.1 ∧ m.2 = n.2) ∧ record l = record r := by
  simp [record]

theorem plain_map {α : Type} {f : α → Json} (hf : ∀ a, Plain (f a)) (l : List α) :
    Plain (.array (l.map f)) := by
  refine .array fun v hv => ?_
  obtain ⟨a, _, rfl⟩ := List.mem_map.1 hv
  exact hf a

@[simp]
theorem plain_optionalNat (n : Option Nat) : Plain (optionalNat n) := by
  cases n with
  | none => exact .null
  | some n => exact plain_nat n

end Json

open Json

/-! ## Records -/

theorem Deprecation.toJson_inj {a b : Deprecation} : a.toJson = b.toJson ↔ a = b := by
  cases a
  cases b
  simp [toJson]

theorem Deprecation.plain_toJson (d : Deprecation) : d.toJson.Plain := .record (by simp)

@[simp]
theorem Deprecation.optionalToJson_inj {a b : Option Deprecation} :
    optionalToJson a = optionalToJson b ↔ a = b := by
  have hnull (d : Deprecation) : d.toJson ≠ .null := by simp [toJson, record, null]
  cases a with
  | none =>
    cases b with
    | none => simp
    | some b => simpa [optionalToJson] using (hnull b).symm
  | some a =>
    cases b with
    | none => simpa [optionalToJson] using hnull a
    | some b => simp [optionalToJson, toJson_inj]

@[simp]
theorem Deprecation.plain_optionalToJson (d : Option Deprecation) : (optionalToJson d).Plain := by
  cases d with
  | none => exact .null
  | some d => exact d.plain_toJson

theorem EnumParam.toJson_inj {a b : EnumParam} : a.toJson = b.toJson ↔ a = b := by
  cases a
  cases b
  simp [toJson]

theorem EnumParam.plain_toJson (p : EnumParam) : p.toJson.Plain := .record (by simp)

theorem EnumValue.toJson_inj {a b : EnumValue} : a.toJson = b.toJson ↔ a = b := by
  cases a
  cases b
  simp [toJson, array_map_inj EnumParam.toJson_inj]

theorem EnumValue.plain_toJson (v : EnumValue) : v.toJson.Plain :=
  .record (by simp [plain_map EnumParam.plain_toJson])

theorem Enumeration.toJson_inj {a b : Enumeration} : a.toJson = b.toJson ↔ a = b := by
  cases a
  cases b
  simp [toJson, array_map_inj EnumValue.toJson_inj]

theorem Enumeration.plain_toJson (e : Enumeration) : e.toJson.Plain :=
  .record (by simp [plain_map EnumValue.plain_toJson])

theorem Field.toJson_inj {a b : Field} : a.toJson = b.toJson ↔ a = b := by
  have hname (p q : Primitive) : p.name = q.name ↔ p = q :=
    ⟨Primitive.name_inj p q, congrArg Primitive.name⟩
  cases a
  cases b
  simp [toJson, hname]

theorem Field.plain_toJson (f : Field) : f.toJson.Plain := .record (by simp)

theorem Message.toJson_inj {a b : Message} : a.toJson = b.toJson ↔ a = b := by
  cases a
  cases b
  simp [toJson, array_map_inj Field.toJson_inj, UInt8.toNat_inj]

theorem Message.plain_toJson (m : Message) : m.toJson.Plain :=
  .record (by simp [plain_map Field.plain_toJson])

theorem CommandParam.toJson_inj {a b : CommandParam} : a.toJson = b.toJson ↔ a = b := by
  cases a
  cases b
  simp [toJson]

theorem CommandParam.plain_toJson (p : CommandParam) : p.toJson.Plain := .record (by simp)

theorem Command.toJson_inj {a b : Command} : a.toJson = b.toJson ↔ a = b := by
  cases a
  cases b
  simp [toJson, array_map_inj CommandParam.toJson_inj]

theorem Command.plain_toJson (c : Command) : c.toJson.Plain :=
  .record (by simp [plain_map CommandParam.plain_toJson])

/-! ## Dialects -/

namespace Dialect

theorem toJson_inj {a b : Dialect} : a.toJson = b.toJson ↔ a = b := by
  cases a
  cases b
  simp [toJson, array_map_inj Enumeration.toJson_inj, array_map_inj Message.toJson_inj,
    array_map_inj Command.toJson_inj]

theorem plain_toJson (d : Dialect) : d.toJson.Plain :=
  .record (by simp [plain_map Enumeration.plain_toJson, plain_map Message.plain_toJson,
    plain_map Command.plain_toJson])

/-- Dialects with the same text are the same in every part. -/
theorem the_text_tells_all_of_a_dialect : Function.Injective toText := by
  intro a b h
  have hparsed := congrArg parse? h
  rw [toText, toText, parse?_pretty a.plain_toJson, parse?_pretty b.plain_toJson] at hparsed
  exact toJson_inj.1 (Option.some.inj hparsed)

end Dialect

end MavDialect
