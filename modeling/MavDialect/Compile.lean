-- Compiling a dialect definition: enums with their numbers and short names, messages with their
-- layouts, and the commands that one of the enums declares.
-- The reports of a compilation never change its result.
import MavDialect.Declaration
import MavDialect.Dialect
import MavDialect.EnumNumeral
import MavDialect.Message.Carrier
import MavDialect.Options
import MavDialect.Text.Wrap
import MavDialect.Traced

namespace MavDialect

namespace Compile

open Traced (each ofExcept report)

/-- A description broken into lines. -/
def lines (options : Options) (text : Option String) : List String :=
  Text.wrap options.wrapWidth text

def deprecation (options : Options) (d : Declaration.Deprecated) : Deprecation where
  since := d.since.getD ""
  replacedBy := d.replacedBy.getD ""
  note := lines options d.note

/-! ## Enums -/

/-- The index of a parameter: as declared, or its position, counted from 1, when that is missing
or no number. -/
def paramIndex {ε : Type} (entry : String) (position : Nat) : Option String → Traced ε Nat
  | none => return position
  | some text =>
    match Text.naturalWithin? 32 (Text.trimChars text.toList) with
    | some index => return index
    | none => do
      report (.paramIndexIgnored entry text position)
      return position

def param {ε : Type} (options : Options) (entry : String) (p : Declaration.Param)
    (position : Nat) : Traced ε EnumParam := do
  let index ← paramIndex entry position p.index
  return {
    index
    label := p.label
    units := p.units.getD ""
    minValue := p.minValue
    maxValue := p.maxValue
    increment := p.increment
    enumName := p.enumName
    reserved := p.reserved
    description := lines options p.description }

/-- The number of an entry and its text: as declared, or one more than the number before it, or
0 for the first.  No number leaves 128 bits. -/
def entryNumber (previous : Option EnumValue) (e : Declaration.Entry) :
    Except CompileError (Int × String) :=
  match e.value, previous with
  | some text, _ =>
    match EnumNumeral.read? text with
    | some n => .ok (n, text)
    | none => .error (.invalidNumber "entry" "value" text)
  | none, none => .ok (0, Text.decimalText 0)
  | none, some p =>
    if Text.fitsSigned 128 (p.value + 1) then
      .ok (p.value + 1, Text.decimalText (p.value + 1))
    else .error (.invalidNumber "entry" "value" (p.sourceValue ++ " + 1"))

def enumValue (options : Options) (previous : Option EnumValue) (e : Declaration.Entry) :
    Traced CompileError EnumValue := do
  let (value, sourceValue) ← ofExcept (entryNumber previous e)
  let params ← each (fun (p, position) => param options e.name p position) (e.params.zipIdx 1)
  return {
    sourceName := e.name
    name := e.name
    value
    sourceValue
    description := lines options e.description
    params
    hasLocation := e.hasLocation
    isDestination := e.isDestination
    workInProgress := e.workInProgress
    deprecated := e.deprecated.map (deprecation options) }

/-- The values of the entries that follow `previous`. -/
def enumValues (options : Options) (previous : Option EnumValue) :
    List Declaration.Entry → Traced CompileError (List EnumValue)
  | [] => return []
  | e :: rest => do
    let value ← enumValue options previous e
    let others ← enumValues options (some value) rest
    return value :: others

/-- An enum with the full names of its values. -/
def enumeration (options : Options) (e : Declaration.Enum) : Traced CompileError Enumeration := do
  report (.enumBegun e.name)
  let values ← enumValues options none e.entries
  return {
    name := Naming.className e.name
    sourceName := e.name
    description := lines options e.description
    commonPrefix := ""
    values }

/-! ## Messages -/

def field (options : Options) (message : String) (isExtension : Bool) (f : Declaration.Field) :
    Except CompileError Field :=
  match Field.declare f.name f.typeName with
  | .error cause => .error (.fieldType message f.name cause)
  | .ok plain =>
    let described :=
      { plain with
        isExtension
        units := f.units.getD ""
        description := lines options f.description }
    match f.enumName with
    | none => .ok described
    | some enum => .ok (described.asEnum enum (Naming.className enum))

/-- The fields among the parts of a message.  From the first mark on they are extensions. -/
def fields (options : Options) (message : String) (isExtension : Bool) :
    List Declaration.Part → Except CompileError (List Field)
  | [] => .ok []
  | .field f :: rest => do
    let first ← field options message isExtension f
    let others ← fields options message isExtension rest
    return first :: others
  | .extensions :: rest => fields options message true rest
  | _ :: rest => fields options message isExtension rest

/-- The last description among the parts. -/
def partsDescription (parts : List Declaration.Part) : Option String :=
  (parts.filterMap fun | .description text => some text | _ => none).getLast?

/-- The last deprecation among the parts. -/
def partsDeprecation (parts : List Declaration.Part) : Option Declaration.Deprecated :=
  (parts.filterMap fun | .deprecated d => some d | _ => none).getLast?

/-- The id of a message, which may be negative. -/
def messageId (text : String) : Except CompileError Int :=
  match Text.integerWithin? 64 10 (Text.trimChars text.toList) with
  | some id => .ok id
  | none => .error (.invalidNumber "message" "id" text)

/-- A message, its id read before its fields. -/
def message (options : Options) (m : Declaration.Message) : Traced CompileError Message := do
  let id ← ofExcept (messageId m.id)
  let fields ← ofExcept (fields options m.name false m.parts)
  let plain := Message.ofFields m.name (Naming.className m.name) id fields
  report (.messageLaidOut m.name id plain.payloadLength plain.fingerprint)
  return { plain with
    description := lines options (partsDescription m.parts)
    deprecated := (partsDeprecation m.parts).map (deprecation options)
    workInProgress := m.isWorkInProgress }

/-- Leaves out the messages that are work in progress. -/
def finishedMessages {ε : Type} : List Message → Traced ε (List Message)
  | [] => return []
  | m :: rest => do
    if m.workInProgress then
      report (.messageSkipped m.sourceName)
      finishedMessages rest
    else
      let others ← finishedMessages rest
      return m :: others

/-! ## The dialect -/

/-- The commands of the enums; a dialect may have none. -/
def commands {ε : Type} (dialect : String) (enums : List Enumeration) :
    Traced ε (List Command) :=
  match Command.ofEnums enums with
  | .ok commands => return commands
  | .error _ => do
    report (.noCommandEnum dialect)
    return []

/-- A number about the dialect itself; one that cannot be read is dropped. -/
def metadata {ε : Type} (dialect element : String) : Option String → Traced ε (Option Nat)
  | none => return none
  | some text =>
    match Text.naturalWithin? 32 text.toList with
    | some n => return some n
    | none => do
      report (.numberIgnored dialect element text)
      return none

/-- Compiles a definition and reports what is done. -/
def dialect (options : Options) (name : String) (root : Element) :
    Traced CompileError Dialect := do
  let declared ← ofExcept (Declaration.Dialect.ofElement root)
  let fullEnums ← each (enumeration options) declared.enums
  let enums := fullEnums.map Enumeration.shortenNames
  let allMessages ← each (message options) declared.messages
  let finished ← finishedMessages allMessages
  let commands ← commands name enums
  let messages := finished.map Message.underscoreCarrier
  report (.dialectCompiled name enums.length messages.length commands.length)
  let version ← metadata name "version" declared.version
  let number ← metadata name "dialect" declared.dialect
  return {
    name
    version
    dialect := number
    includes := declared.includes
    enums
    messages
    commands }

end Compile

/-- Compiles a dialect definition. -/
def compile (options : Options) (name : String) (root : Element) : Except CompileError Dialect :=
  (Compile.dialect options name root).result

end MavDialect
