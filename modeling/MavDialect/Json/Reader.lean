-- Reading JSON text.  The reader keeps the containers that are open on a stack of its own, so
-- nesting has no limit here; each token moves it from one state to the next or is refused.
import MavDialect.Json.Token

namespace MavDialect.Json

/-- A container that is still open, with what it holds so far, last first. -/
inductive Frame where
  | items (done : List Json)
  | members (done : List (Option String × Json)) (key : Option String)

/-- What may come next, inside the open containers, innermost first. -/
inductive State where
  /-- A value. -/
  | value (nest : List Frame)
  /-- A value or the end of a fresh array. -/
  | firstItem (nest : List Frame)
  /-- A key or the end of a fresh object. -/
  | firstKey (nest : List Frame)
  /-- A key of an object that has members. -/
  | key (done : List (Option String × Json)) (nest : List Frame)
  /-- The colon after a key. -/
  | colon (done : List (Option String × Json)) (key : Option String) (nest : List Frame)
  /-- A comma or the end of the container around a complete value. -/
  | after (v : Json) (nest : List Frame)

/-- The first token of a value. -/
def State.begin (nest : List Frame) : Token → Option State
  | .scalar s => some (.after (.scalar s) nest)
  | .openArray => some (.firstItem nest)
  | .openObject => some (.firstKey nest)
  | _ => none

/-- The state after one more token. -/
def State.step : State → Token → Option State
  | .value nest, t => State.begin nest t
  | .firstItem nest, .closeArray => some (.after (.array []) nest)
  | .firstItem nest, t => State.begin (.items [] :: nest) t
  | .firstKey nest, .closeObject => some (.after (.object []) nest)
  | .firstKey nest, .scalar (.string k) => some (.colon [] k nest)
  | .key done nest, .scalar (.string k) => some (.colon done k nest)
  | .colon done k nest, .colon => some (.value (.members done k :: nest))
  | .after v (.items done :: nest), .comma => some (.value (.items (v :: done) :: nest))
  | .after v (.items done :: nest), .closeArray =>
    some (.after (.array (v :: done).reverse) nest)
  | .after v (.members done k :: nest), .comma => some (.key ((k, v) :: done) nest)
  | .after v (.members done k :: nest), .closeObject =>
    some (.after (.object ((k, v) :: done).reverse) nest)
  | _, _ => none

theorem length_after {cs rest after : List Char} {c : Char} {t : Token}
    (h : cs.dropWhile isSpace = c :: rest) (ht : scanToken? c rest = some (t, after)) :
    after.length < cs.length := by
  have h1 := length_dropWhile_le isSpace cs
  have h2 := scanToken?_length ht
  rw [h] at h1
  simp only [List.length_cons] at h1
  omega

/-- Reads on to the end of the text. -/
def readFrom (state : State) (cs : List Char) : Option State :=
  match h : cs.dropWhile isSpace with
  | [] => some state
  | c :: rest =>
    match ht : scanToken? c rest with
    | none => none
    | some (t, after) =>
      have := length_after h ht
      match state.step t with
      | none => none
      | some next => readFrom next after
termination_by cs.length

/-- The one value that makes up the whole text. -/
def parse? (text : String) : Option Json :=
  match readFrom (.value []) text.toList with
  | some (.after v []) => some v
  | _ => none

end MavDialect.Json
