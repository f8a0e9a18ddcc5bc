-- Compiled dialects as JSON, for the generators of code.  Members stand in the order of the
-- fields, a missing value is `null`, and numbers of any size are written in full.
import MavDialect.Batch
import MavDialect.Json.Printer

namespace MavDialect

def Deprecation.toJson (d : Deprecation) : Json :=
  .record [
    ("since", .string d.since),
    ("replaced_by", .string d.replacedBy),
    ("note", .strings d.note)]

/-- A missing note is written as `null`. -/
def Deprecation.optionalToJson : Option Deprecation → Json
  | none => .null
  | some d => d.toJson

def EnumParam.toJson (p : EnumParam) : Json :=
  .record [
    ("index", .nat p.index),
    ("label", .optionalString p.label),
    ("units", .string p.units),
    ("min_value", .optionalString p.minValue),
    ("max_value", .optionalString p.maxValue),
    ("increment", .optionalString p.increment),
    ("enum_name", .optionalString p.enumName),
    ("reserved", .bool p.reserved),
    ("description", .strings p.description)]

def EnumValue.toJson (v : EnumValue) : Json :=
  .record [
    ("source_name", .string v.sourceName),
    ("name", .string v.name),
    ("value", .int v.value),
    ("source_value", .string v.sourceValue),
    ("description", .strings v.description),
    ("params", .array (v.params.map EnumParam.toJson)),
    ("has_location", .bool v.hasLocation),
    ("is_destination", .bool v.isDestination),
    ("work_in_progress", .bool v.workInProgress),
    ("deprecated", Deprecation.optionalToJson v.deprecated)]

def Enumeration.toJson (e : Enumeration) : Json :=
  .record [
    ("name", .string e.name),
    ("source_name", .string e.sourceName),
    ("description", .strings e.description),
    ("common_prefix", .string e.commonPrefix),
    ("values", .array (e.values.map EnumValue.toJson))]

/-- A missing number is written as `null`. -/
def Json.optionalNat : Option Nat → Json
  | none => .null
  | some n => .nat n

def Field.toJson (f : Field) : Json :=
  .record [
    ("source_name", .string f.sourceName),
    ("name", .string f.name),
    ("declared_type", .string f.declaredType),
    ("element_type", .string f.elementType.name),
    ("element_size", .nat f.elementSize),
    ("array_length", .optionalNat f.arrayLength),
    ("total_size", .nat f.totalSize),
    ("offset", .nat f.offset),
    ("is_extension", .bool f.isExtension),
    ("enum_source_name", .optionalString f.enumSourceName),
    ("enum_name", .optionalString f.enumName),
    ("field_type", .string f.fieldType),
    ("units", .string f.units),
    ("description", .strings f.description)]

def Message.toJson (m : Message) : Json :=
  .record [
    ("source_name", .string m.sourceName),
    ("name", .string m.name),
    ("id", .int m.id),
    ("description", .strings m.description),
    ("deprecated", Deprecation.optionalToJson m.deprecated),
    ("work_in_progress", .bool m.workInProgress),
    ("fields", .array (m.fields.map Field.toJson)),
    ("payload_length", .nat m.payloadLength),
    ("magic", .nat m.fingerprint.toNat)]

def CommandParam.toJson (p : CommandParam) : Json :=
  .record [
    ("index", .nat p.index),
    ("name", .string p.name),
    ("label", .string p.label),
    ("units", .string p.units),
    ("min_value", .optionalString p.minValue),
    ("max_value", .optionalString p.maxValue),
    ("increment", .optionalString p.increment),
    ("description", .strings p.description)]

def Command.toJson (c : Command) : Json :=
  .record [
    ("source_name", .string c.sourceName),
    ("name", .string c.name),
    ("class_name", .string c.className),
    ("value", .int c.value),
    ("description", .strings c.description),
    ("has_location", .bool c.hasLocation),
    ("is_destination", .bool c.isDestination),
    ("params", .array (c.params.map CommandParam.toJson))]

def Dialect.toJson (d : Dialect) : Json :=
  .record [
    ("name", .string d.name),
    ("version", .optionalNat d.version),
    ("dialect", .optionalNat d.dialect),
    ("includes", .strings d.includes),
    ("enums", .array (d.enums.map Enumeration.toJson)),
    ("messages", .array (d.messages.map Message.toJson)),
    ("commands", .array (d.commands.map Command.toJson))]

/-- An object from ids to fingerprints, by ascending id. -/
def Fingerprints.toJson (numbers : Fingerprints) : Json :=
  .record (numbers.entries.map fun (id, byte) => (Text.decimalText id, .nat byte.toNat))

def Batch.toJson (b : Batch) : Json :=
  .record [
    ("dialects", .array (b.dialects.map Dialect.toJson)),
    ("magic_numbers", Fingerprints.toJson b.fingerprints)]

/-! ## As text -/

def Dialect.toText (d : Dialect) : String := d.toJson.pretty

def Fingerprints.toText (numbers : Fingerprints) : String := (Fingerprints.toJson numbers).pretty

def Batch.toText (b : Batch) : String := b.toJson.compact

end MavDialect
