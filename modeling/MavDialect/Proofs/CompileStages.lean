-- The stages of a compilation without their reports.  Three of them can fail: reading the
-- definition, numbering the enums, and reading the messages.  What follows is a function of what
-- they yield.
import MavDialect.Compile

namespace MavDialect

/-- An element without text. -/
def Element.ofParts (name : String) (attributes : List (String × String))
    (children : List Element) : Element :=
  ⟨name, .ofList attributes, none, children⟩

namespace Compile

/-- The commands of the enums, none when no enum declares them. -/
def commandsOf (enums : List Enumeration) : List Command :=
  (Command.ofEnums enums).toOption.getD []

/-- The commands are those of the first enum of their class, its values in order and without those
that are work in progress. -/
theorem commandsOf_eq (enums : List Enumeration) :
    commandsOf enums = ((enums.find? (·.name == Command.enumClass)).map fun x =>
      (x.values.filter (!·.workInProgress)).map Command.ofValue).getD [] := by
  unfold commandsOf Command.ofEnums
  cases enums.find? (·.name == Command.enumClass) <;> rfl

/-- A dialect from what the stages yield. -/
def assemble (name : String) (declared : Declaration.Dialect) (fullEnums : List Enumeration)
    (allMessages : List Message) : Dialect where
  name
  version := declared.version.bind fun text => Text.naturalWithin? 32 text.toList
  dialect := declared.dialect.bind fun text => Text.naturalWithin? 32 text.toList
  includes := declared.includes
  enums := fullEnums.map Enumeration.shortenNames
  messages := (allMessages.filter fun m => !m.workInProgress).map Message.underscoreCarrier
  commands := commandsOf (fullEnums.map Enumeration.shortenNames)

/-- A message from what its stages yield. -/
def assembleMessage (options : Options) (m : Declaration.Message) (id : Int)
    (fields : List Field) : Message :=
  { Message.ofFields m.name (Naming.className m.name) id fields with
    description := lines options (partsDescription m.parts)
    deprecated := (partsDeprecation m.parts).map (deprecation options)
    workInProgress := m.isWorkInProgress }

/-- A field with all that it declares but its enum. -/
def plainField (options : Options) (isExtension : Bool) (f : Declaration.Field) (t : FieldType) :
    Field :=
  { Field.ofType f.name f.typeName t with
    isExtension
    units := f.units.getD ""
    description := lines options f.description }

/-- A field of a type that was read, with all that it declares. -/
def assembleField (options : Options) (isExtension : Bool) (f : Declaration.Field)
    (t : FieldType) : Field :=
  match f.enumName with
  | none => plainField options isExtension f t
  | some enum => (plainField options isExtension f t).asEnum enum (Naming.className enum)

theorem field_eq_ok_iff {options : Options} {message : String} {isExtension : Bool}
    {declared : Declaration.Field} {f : Field} :
    field options message isExtension declared = .ok f ↔
      ∃ t, FieldType.parse declared.typeName = .ok t ∧
        assembleField options isExtension declared t = f := by
  unfold field assembleField Field.declare
  cases FieldType.parse declared.typeName with
  | error cause => simp [Except.map]
  | ok t => cases declared.enumName <;> simp [Except.map, plainField]

@[simp]
theorem result_finishedMessages {ε : Type} (messages : List Message) :
    (finishedMessages messages : Traced ε (List Message)).result =
      .ok (messages.filter fun m => !m.workInProgress) := by
  induction messages with
  | nil => rfl
  | cons m rest ih =>
    rw [finishedMessages, List.filter_cons]
    split
    · rename_i hwip
      rw [Traced.result_bind, ih, hwip]
      rfl
    · rename_i hwip
      rw [Traced.result_bind, ih]
      simp only [hwip, Bool.not_false, if_true]
      rfl

@[simp]
theorem result_commands {ε : Type} (name : String) (enums : List Enumeration) :
    (commands name enums : Traced ε (List Command)).result = .ok (commandsOf enums) := by
  unfold commands commandsOf
  cases Command.ofEnums enums <;> rfl

@[simp]
theorem result_metadata {ε : Type} (name element : String) (text : Option String) :
    (metadata name element text : Traced ε (Option Nat)).result =
      .ok (text.bind fun text => Text.naturalWithin? 32 text.toList) := by
  unfold metadata
  rcases text with _ | text
  · rfl
  · simp only [Option.bind_some]
    cases Text.naturalWithin? 32 text.toList <;> rfl

theorem result_message (options : Options) (m : Declaration.Message) :
    (message options m).result = do
      let id ← messageId m.id
      let fields ← fields options m.name false m.parts
      return assembleMessage options m id fields := by
  simp [message]
  rfl

/-- A compilation, stage by stage. -/
theorem compile_eq (options : Options) (name : String) (root : Element) :
    compile options name root = do
      let declared ← Declaration.Dialect.ofElement root
      let fullEnums ← declared.enums.mapM fun e => (enumeration options e).result
      let allMessages ← declared.messages.mapM fun m => (message options m).result
      return assemble name declared fullEnums allMessages := by
  simp only [compile, dialect, Traced.result_bind, Traced.result_ofExcept, Traced.result_each,
    result_finishedMessages, result_commands, result_metadata, Traced.result_report,
    Traced.result_pure]
  rfl

end Compile

end MavDialect
