-- The commands of a dialect and the values that they are made of.  Numbers, places and the prefix
-- are settled over all that an enum declares, and only then are unfinished values and parameters
-- without a label left out.  So nothing that is left out moves what is kept.
import MavDialect.Proofs.MirroredEnum

namespace MavDialect

/-! ## What a command keeps -/

/-- The parameter has a label that is more than white space. -/
def EnumParam.isLabelled (p : EnumParam) : Bool := p.label.any fun label => !Text.isBlank label

/-- The parameter of the command is that of the value, under the name made from its label. -/
structure CommandParam.Keeps (p : EnumParam) (q : CommandParam) : Prop where
  index : q.index = p.index
  label : p.label = some q.label
  name : q.name = Naming.labelIdentifier q.label
  units : q.units = p.units
  minValue : q.minValue = p.minValue
  maxValue : q.maxValue = p.maxValue
  increment : q.increment = p.increment
  description : q.description = p.description

/-- The command is that of the value, under its name without `front`. -/
structure Command.Announces (front : String) (v : EnumValue) (c : Command) : Prop where
  sourceName : c.sourceName = v.sourceName
  name : c.name = Naming.shortName v.sourceName front
  className : c.className = Naming.commandClassName c.name
  value : c.value = v.value
  description : c.description = v.description
  hasLocation : c.hasLocation = v.hasLocation
  isDestination : c.isDestination = v.isDestination
  params : List.Forall₂ CommandParam.Keeps (v.params.filter (·.isLabelled)) c.params

/-- A parameter with a label is kept, and another one is not. -/
theorem CommandParam.ofParam?_cases (p : EnumParam) :
    (p.isLabelled = true ∧ ∃ q, ofParam? p = some q ∧ Keeps p q) ∨
      (p.isLabelled = false ∧ ofParam? p = none) := by
  unfold EnumParam.isLabelled ofParam?
  cases hlabel : p.label with
  | none => exact .inr ⟨rfl, rfl⟩
  | some label =>
    cases hblank : Text.isBlank label with
    | true => exact .inr ⟨by simp [hblank], by simp [hblank]⟩
    | false =>
      refine .inl ⟨by simp [hblank], _, by simp only [hblank]; rfl, ?_⟩
      exact ⟨rfl, hlabel, rfl, rfl, rfl, rfl, rfl, rfl⟩

theorem CommandParam.keeps_ofParam? (params : List EnumParam) :
    List.Forall₂ Keeps (params.filter (·.isLabelled)) (params.filterMap ofParam?) := by
  induction params with
  | nil => exact .nil
  | cons p rest ih =>
    rcases ofParam?_cases p with ⟨hlabelled, q, hq, hkeeps⟩ | ⟨hlabelled, hnone⟩
    · rw [List.filter_cons_of_pos hlabelled, List.filterMap_cons_some hq]
      exact .cons hkeeps ih
    · rw [List.filter_cons_of_neg (by simp [hlabelled]), List.filterMap_cons_none hnone]
      exact ih

theorem Command.announces_ofValue {front : String} {v : EnumValue}
    (h : v.name = Naming.shortName v.sourceName front) : Announces front v (ofValue v) :=
  ⟨rfl, h, rfl, rfl, rfl, rfl, rfl, CommandParam.keeps_ofParam? v.params⟩

namespace Compile

open Faults

/-! ## The commands of a dialect -/

/-- The first enum of the class for commands mirrors the first element that declares them. -/
theorem find?_commandEnum {options : Options} {name : String} {root : Element}
    {d : MavDialect.Dialect} (h : compile options name root = .ok d) :
    Option.Rel (MirrorsEnum options) ((enumElements root).find? declaresCommands)
      (d.enums.find? (·.name == Command.enumClass)) := by
  refine find?_rel (mirrors_enums_of_compile h) fun e x hx => ?_
  rw [declaresCommands, hx.sourceName, hx.name]
  rfl

/-- Without an enum of their class a dialect has no commands.  Where there is one, the first of them
is what the first such element declares, in all its values and parameters, and the commands are
those of its values that are not work in progress, in order.  Each has the number of its value, the
name without the prefix of all the values, and the labelled parameters with their own places. -/
theorem commands_are_those_of_the_finished_values (options : Options) (name : String)
    (root : Element) (d : MavDialect.Dialect) (h : compile options name root = .ok d) :
    (d.enums.find? (·.name == "MavCmd") = none → d.commands = []) ∧
    ∀ x, d.enums.find? (·.name == "MavCmd") = some x →
      (∃ e, (enumElements root).find? declaresCommands = some e ∧ MirrorsEnum options e x) ∧
      List.Forall₂ (Command.Announces x.prefixToCut) (x.values.filter (!·.workInProgress))
        d.commands := by
  have hcommands := commands_of_compile h
  have hfirst := find?_commandEnum h
  constructor
  · intro hnone
    rw [Command.enumClass, hnone] at hcommands
    exact hcommands
  · intro x hx
    rw [Command.enumClass, hx] at hcommands hfirst
    generalize (enumElements root).find? declaresCommands = found at hfirst
    cases hfirst with
    | @some e _ hmirrors =>
      refine ⟨⟨e, rfl, hmirrors⟩, ?_⟩
      rw [hcommands]
      refine List.forall₂_map_right_iff.2 (List.forall₂_same.2 fun v hv => ?_)
      exact Command.announces_ofValue (hmirrors.name_of_mem (List.mem_filter.1 hv).1)

/-- An enum of commands with an unfinished value, and parameters without a label. -/
def flightCommands : Element :=
  .ofParts "enum" [("name", "MAV_CMD")]
    [.ofParts "entry" [("name", "MAV_CMD_NAV_GO"), ("value", "16"), ("hasLocation", "true")]
        [.ofParts "param" [("label", "Hold Time"), ("minValue", "0")] [],
          .ofParts "param" [("index", "5")] [],
          .ofParts "param" [("label", " \t")] [],
          .ofParts "param" [("label", "Yaw/Heading")] [],
          .ofParts "param" [("index", " 7 "), ("label", "Cool-Factor")] []],
      .ofParts "entry" [("name", "MAV_CMD_HIDE")] [.new "wip"],
      .ofParts "entry" [("name", "MAV_CMD_NAV_STOP")] []]

/-- Two enums of that class among others; the second of them has no command. -/
def flightDefinition : Element :=
  .ofParts "mavlink" []
    [.ofParts "enums" [] [kindEnum],
      .ofParts "enums" []
        [flightCommands,
          .ofParts "enum" [("name", "mav-cmd")] [.ofParts "entry" [("name", "LATE")] []]]]

theorem an_unfinished_value_moves_no_number_and_no_name :
    ∃ d x, compile {} "sample" flightDefinition = .ok d ∧
      d.enums.find? (·.name == "MavCmd") = some x ∧
      x.values.map (fun v => (v.name, v.value, v.workInProgress)) =
        [("NAV_GO", 16, false), ("HIDE", 17, true), ("NAV_STOP", 18, false)] ∧
      d.commands.map (fun c => (c.className, c.value)) =
        [("NavGoCommand", 16), ("NavStopCommand", 18)] ∧
      d.commands.map (fun c => c.params.map fun p => (p.index, p.name)) =
        [[(1, "holdTime"), (4, "yaw"), (7, "coolFactor")], []] ∧
      MirrorsEnum {} flightCommands x ∧
      List.Forall₂ (Command.Announces x.prefixToCut) (x.values.filter (!·.workInProgress))
        d.commands := by
  obtain ⟨d, x, hcompile, hfirst, hvalues, hclasses, hparams⟩ :
      ∃ d x, compile {} "sample" flightDefinition = .ok d ∧
        d.enums.find? (·.name == "MavCmd") = some x ∧
        x.values.map (fun v => (v.name, v.value, v.workInProgress)) =
          [("NAV_GO", 16, false), ("HIDE", 17, true), ("NAV_STOP", 18, false)] ∧
        d.commands.map (fun c => (c.className, c.value)) =
          [("NavGoCommand", 16), ("NavStopCommand", 18)] ∧
        d.commands.map (fun c => c.params.map fun p => (p.index, p.name)) =
          [[(1, "holdTime"), (4, "yaw"), (7, "coolFactor")], []] :=
    ⟨_, _, rfl, rfl, by decide +kernel, by decide +kernel, by decide +kernel⟩
  obtain ⟨_, hcommands⟩ := commands_are_those_of_the_finished_values {} "sample" flightDefinition d
    hcompile
  obtain ⟨⟨e, he, hmirrors⟩, hannounced⟩ := hcommands x hfirst
  have helement : (enumElements flightDefinition).find? declaresCommands = some flightCommands :=
    rfl
  cases helement.symm.trans he
  exact ⟨d, x, hcompile, hfirst, hvalues, hclasses, hparams, hmirrors, hannounced⟩

end Compile

end MavDialect
