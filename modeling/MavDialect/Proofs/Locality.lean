-- Compilation is local.  Sections may be split, merged and moved, and whatever is not known may
-- come and go.  Each enum and each message yields what it yields in a definition of its own, so
-- nothing is carried from one to the next, and the commands come from one enum alone.
import MavDialect.Proofs.CompiledElements

namespace MavDialect.Compile

open Faults Outcome

/-! ## Definitions with the same parts -/

/-- The includes that name something. -/
def namedIncludes (root : Element) : List Element :=
  (root.childrenWith "include").filter (·.text.isSome)

/-- The two roots hold the same includes, the same last version and dialect number, and in all their
sections together the same enums and the same messages, each in the same order. -/
structure SameParts (root other : Element) : Prop where
  name : other.name = root.name
  includes : namedIncludes other = namedIncludes root
  version : (other.childrenWith "version").getLast? = (root.childrenWith "version").getLast?
  dialect : (other.childrenWith "dialect").getLast? = (root.childrenWith "dialect").getLast?
  enums : enumElements other = enumElements root
  messages : messageElements other = messageElements root

/-- An include without a text names nothing. -/
theorem filterMap_namedIncludes (root : Element) :
    (namedIncludes root).filterMap Declaration.trimmedText =
      (root.childrenWith "include").filterMap Declaration.trimmedText := by
  rw [namedIncludes, List.filterMap_filter]
  congr 1
  funext e
  unfold Declaration.trimmedText
  cases e.text <;> rfl

theorem SameParts.header_eq {root other : Element} (h : SameParts root other) :
    Declaration.header other = Declaration.header root := by
  unfold Declaration.header
  rw [← filterMap_namedIncludes, ← filterMap_namedIncludes, h.includes, h.version, h.dialect]

theorem SameParts.compile_eq_ok {options : Options} {name : String} {root other : Element}
    {d : MavDialect.Dialect} (h : SameParts root other) (hd : compile options name root = .ok d) :
    compile options name other = .ok d := by
  obtain ⟨hroot, fullEnums, allMessages, henums, hmessages, hd⟩ := compile_eq_ok_iff.1 hd
  refine compile_eq_ok_iff.2 ⟨h.name.trans hroot, fullEnums, allMessages, ?_, ?_, ?_⟩
  · rw [h.enums, henums]
  · rw [h.messages, hmessages]
  · rw [h.header_eq, hd]

/-! ## Definitions of one element -/

/-- A definition that holds one enum and nothing else. -/
def onlyEnum (e : Element) : Element := .ofParts "mavlink" [] [.ofParts "enums" [] [e]]

/-- A definition that holds one message and nothing else. -/
def onlyMessage (m : Element) : Element := .ofParts "mavlink" [] [.ofParts "messages" [] [m]]

theorem name_of_mem_childrenWith {e c : Element} {kind : String} (h : c ∈ e.childrenWith kind) :
    c.name = kind :=
  eq_of_beq (List.mem_filter.1 h).2

theorem name_of_mem_enumElements {root e : Element} (h : e ∈ enumElements root) :
    e.name = "enum" := by
  obtain ⟨_, _, he⟩ := List.mem_flatMap.1 h
  exact name_of_mem_childrenWith he

theorem name_of_mem_messageElements {root m : Element} (h : m ∈ messageElements root) :
    m.name = "message" := by
  obtain ⟨_, _, hm⟩ := List.mem_flatMap.1 h
  exact name_of_mem_childrenWith hm

theorem kind_of_mem_finishedElements {root m : Element} (h : m ∈ finishedElements root) :
    m.name = "message" ∧ isUnfinished m = false := by
  obtain ⟨hm, hfinished⟩ := List.mem_filter.1 h
  exact ⟨name_of_mem_messageElements hm, by simpa using hfinished⟩

theorem enumElements_onlyEnum {e : Element} (he : e.name = "enum") :
    enumElements (onlyEnum e) = [e] := by
  show [e].filter (·.name == "enum") ++ [] = [e]
  simp [he]

theorem messageElements_onlyMessage {m : Element} (hm : m.name = "message") :
    messageElements (onlyMessage m) = [m] := by
  show [m].filter (·.name == "message") ++ [] = [m]
  simp [hm]

/-- An enum that is accepted yields the same in a definition of its own. -/
theorem compile_onlyEnum {options : Options} {e : Element} {x : Enumeration}
    (he : e.name = "enum") (hx : enumOf options e = .ok x) (name : String) :
    compile options name (onlyEnum e) =
      .ok (assemble name (Declaration.header (onlyEnum e)) [x] []) := by
  refine compile_eq_ok_iff.2 ⟨rfl, [x], [], ?_, rfl, rfl⟩
  rw [enumElements_onlyEnum he]
  exact mapM_cons_eq_ok_iff.2 ⟨x, [], hx, rfl, rfl⟩

theorem compile_onlyMessage {options : Options} {e : Element} {m : Message}
    (he : e.name = "message") (hm : messageOf options e = .ok m) (name : String) :
    compile options name (onlyMessage e) =
      .ok (assemble name (Declaration.header (onlyMessage e)) [] [m]) := by
  refine compile_eq_ok_iff.2 ⟨rfl, [], [m], rfl, ?_, rfl⟩
  rw [messageElements_onlyMessage he]
  exact mapM_cons_eq_ok_iff.2 ⟨m, [], hm, rfl, rfl⟩

/-- Each enum of the dialect is the one that its element yields alone. -/
theorem enums_alone {options : Options} {root : Element} {fullEnums : List Enumeration}
    (h : (enumElements root).mapM (enumOf options) = .ok fullEnums) (name : String) :
    List.Forall₂
      (fun e x => ∃ one, compile options name (onlyEnum e) = .ok one ∧ one.enums = [x])
      (enumElements root) (fullEnums.map Enumeration.shortenNames) := by
  have heach := (List.forall₂_and_left _ _).2
    ⟨fun _ => name_of_mem_enumElements, mapM_eq_ok_iff_forall₂.1 h⟩
  refine List.forall₂_map_right_iff.2 (heach.imp ?_)
  rintro e x ⟨he, hx⟩
  exact ⟨_, compile_onlyEnum he hx name, rfl⟩

/-- Each message of the dialect is the one that its element yields alone. -/
theorem messages_alone {options : Options} {root : Element} {allMessages : List Message}
    (h : (messageElements root).mapM (messageOf options) = .ok allMessages) (name : String) :
    List.Forall₂
      (fun e m => ∃ one, compile options name (onlyMessage e) = .ok one ∧ one.messages = [m])
      (finishedElements root)
      ((allMessages.filter fun m => !m.workInProgress).map Message.underscoreCarrier) := by
  have heach := (List.forall₂_and_left _ _).2
    ⟨fun _ => kind_of_mem_finishedElements, mapM_eq_ok_iff_forall₂.1 (finished_of_walk h)⟩
  refine List.forall₂_map_right_iff.2 (heach.imp ?_)
  rintro e m ⟨⟨he, hfinished⟩, hm⟩
  refine ⟨_, compile_onlyMessage he hm name, ?_⟩
  have hkept : m.workInProgress = false := (workInProgress_of_messageOf hm).trans hfinished
  rw [assemble, List.filter_cons_of_pos (by rw [hkept]; rfl)]
  rfl

/-! ## The enum with the commands -/

/-- The enum's class is the one whose values are commands. -/
def declaresCommands (e : Element) : Bool :=
  Naming.className ((e.attribute? "name").getD "") == Command.enumClass

/-- The first items that are looked for stand at the same place. -/
theorem find?_rel {α β : Type} {R : α → β → Prop} {p : α → Bool} {q : β → Bool}
    {l : List α} {r : List β} (h : List.Forall₂ R l r) (hpq : ∀ a b, R a b → p a = q b) :
    Option.Rel R (l.find? p) (r.find? q) := by
  induction h with
  | nil => exact .none
  | @cons a b l r hab _ ih =>
    rw [List.find?_cons, List.find?_cons, hpq a b hab]
    split
    · exact .some hab
    · exact ih

/-- The commands are those of the first enum of their class. -/
theorem commandsOf_shortened (fullEnums : List Enumeration) :
    commandsOf (fullEnums.map Enumeration.shortenNames) =
      ((fullEnums.find? (·.name == Command.enumClass)).map fun x =>
        commandsOf [x.shortenNames]).getD [] := by
  have hfind : (fullEnums.map Enumeration.shortenNames).find? (·.name == Command.enumClass) =
      (fullEnums.find? (·.name == Command.enumClass)).map Enumeration.shortenNames :=
    List.find?_map
  rw [commandsOf_eq, hfind]
  cases hfirst : fullEnums.find? (·.name == Command.enumClass) with
  | none => rfl
  | some x =>
    have hclass := List.find?_some hfirst
    have hone : [x.shortenNames].find? (·.name == Command.enumClass) = some x.shortenNames :=
      List.find?_cons_of_pos hclass
    show _ = commandsOf [x.shortenNames]
    rw [commandsOf_eq, hone]
    rfl

/-- The commands of a dialect are made of the finished values of its first enum of their class. -/
theorem commands_of_compile {options : Options} {name : String} {root : Element}
    {d : MavDialect.Dialect} (h : compile options name root = .ok d) :
    d.commands = ((d.enums.find? (·.name == Command.enumClass)).map fun x =>
      (x.values.filter (!·.workInProgress)).map Command.ofValue).getD [] := by
  obtain ⟨_, fullEnums, _, _, _, rfl⟩ := compile_eq_ok_iff.1 h
  exact commandsOf_eq (fullEnums.map Enumeration.shortenNames)

/-- The element of that enum is the first one that declares commands. -/
theorem find?_declaresCommands {options : Options} {elements : List Element}
    {fullEnums : List Enumeration} (h : elements.mapM (enumOf options) = .ok fullEnums) :
    Option.Rel (fun e x => enumOf options e = .ok x) (elements.find? declaresCommands)
      (fullEnums.find? (·.name == Command.enumClass)) := by
  refine find?_rel (mapM_eq_ok_iff_forall₂.1 h) fun e x hx => ?_
  obtain ⟨hname, hclass⟩ := name_of_enumOf hx
  rw [declaresCommands, hname, hclass]
  rfl

/-! ## The law -/

/-- A dialect depends on the parts of its definition, not on how they are grouped.  Each of its
enums and messages is the one that a definition with that element alone yields, and its commands
are those of the first enum whose class declares commands. -/
theorem compilation_is_local {options : Options} {name : String} {root : Element}
    {d : MavDialect.Dialect} (h : compile options name root = .ok d) :
    (∀ other, SameParts root other → compile options name other = .ok d) ∧
      List.Forall₂
        (fun e x => ∃ one, compile options name (onlyEnum e) = .ok one ∧ one.enums = [x])
        (enumElements root) d.enums ∧
      List.Forall₂
        (fun e m => ∃ one, compile options name (onlyMessage e) = .ok one ∧ one.messages = [m])
        (finishedElements root) d.messages ∧
      (∀ e, (enumElements root).find? declaresCommands = some e →
        ∃ one, compile options name (onlyEnum e) = .ok one ∧ one.commands = d.commands) ∧
      ((enumElements root).find? declaresCommands = none → d.commands = []) := by
  refine ⟨fun _ hother => hother.compile_eq_ok h, ?_⟩
  obtain ⟨_, fullEnums, allMessages, henums, hmessages, rfl⟩ := compile_eq_ok_iff.1 h
  have hcommands := commandsOf_shortened fullEnums
  have hfirst := find?_declaresCommands henums
  refine ⟨enums_alone henums name, messages_alone hmessages name, ?_, ?_⟩
  · intro e he
    rw [he] at hfirst
    generalize fullEnums.find? (·.name == Command.enumClass) = found at hfirst hcommands
    cases hfirst with
    | some hx =>
      have hname := name_of_mem_enumElements (List.mem_of_find?_eq_some he)
      exact ⟨_, compile_onlyEnum hname hx name, hcommands.symm⟩
  · intro hnone
    rw [hnone] at hfirst
    generalize fullEnums.find? (·.name == Command.enumClass) = found at hfirst hcommands
    cases hfirst
    exact hcommands

/-- An enum whose values are commands. -/
def commandEnum : Element :=
  .ofParts "enum" [("name", "MAV_CMD")]
    [.ofParts "entry" [("name", "MAV_CMD_GO"), ("value", "16")] [],
      .ofParts "entry" [("name", "MAV_CMD_STOP")] []]

/-- An enum of another class. -/
def kindEnum : Element :=
  .ofParts "enum" [("name", "MAV_KIND")] [.ofParts "entry" [("name", "MAV_KIND_ANY")] []]

/-- A message with one field. -/
def pingMessage (id name : String) : Element :=
  .ofParts "message" [("id", id), ("name", name)]
    [.ofParts "field" [("name", "time"), ("type", "uint32_t")] []]

/-- The sections are split, an include is empty, and there is more than one version. -/
def scatteredDefinition : Element :=
  .ofParts "mavlink" []
    [.ofParts "messages" [] [pingMessage "4" "PING"], (Element.new "version").setText "1",
      .ofParts "enums" [] [kindEnum, .new "note"], .new "include", .new "note",
      (Element.new "include").setText " common.xml ", (Element.new "version").setText "3",
      .ofParts "enums" [] [commandEnum], .ofParts "messages" [] [pingMessage "5" "PONG"]]

/-- The same parts, each section once. -/
def gatheredDefinition : Element :=
  .ofParts "mavlink" []
    [(Element.new "include").setText " common.xml ", (Element.new "version").setText "3",
      .ofParts "messages" [] [pingMessage "4" "PING", pingMessage "5" "PONG"],
      .ofParts "enums" [] [kindEnum, commandEnum]]

theorem scattered_sections_compile_as_one :
    ∃ d, compile {} "sample" scatteredDefinition = .ok d ∧ d.version = some 3 ∧
      d.includes = ["common.xml"] ∧ d.messages.map (·.name) = ["Ping", "Pong"] ∧
      d.commands.map (·.value) = [16, 17] ∧
      SameParts scatteredDefinition gatheredDefinition ∧
      compile {} "sample" gatheredDefinition = .ok d ∧
      (∃ one, compile {} "sample" (onlyEnum commandEnum) = .ok one ∧
        one.commands = d.commands) ∧
      List.Forall₂
        (fun e x => ∃ one, compile {} "sample" (onlyEnum e) = .ok one ∧ one.enums = [x])
        [kindEnum, commandEnum] d.enums ∧
      List.Forall₂
        (fun e m => ∃ one, compile {} "sample" (onlyMessage e) = .ok one ∧ one.messages = [m])
        [pingMessage "4" "PING", pingMessage "5" "PONG"] d.messages := by
  have hparts : SameParts scatteredDefinition gatheredDefinition := ⟨rfl, rfl, rfl, rfl, rfl, rfl⟩
  obtain ⟨hsame, henums, hmessages, hcommands, _⟩ :=
    compilation_is_local (rfl : compile {} "sample" scatteredDefinition = .ok _)
  exact ⟨_, rfl, rfl, rfl, rfl, rfl, hparts, hsame _ hparts, hcommands commandEnum rfl, henums,
    hmessages⟩

end MavDialect.Compile
