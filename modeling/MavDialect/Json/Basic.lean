-- JSON values as they are written: members keep their order and may repeat a key, and a number
-- that is not a plain integer keeps its literal, so `-0`, `1.0` and `1e999` differ from integers.

namespace MavDialect

namespace Json

/-- A value without parts.  A string literal denotes no text when it escapes half of a surrogate
pair alone; it is then `string none`. -/
inductive Scalar where
  | null
  | bool (b : Bool)
  | int (n : Int)
  | decimal (literal : List Char)
  | string (text : Option String)
  deriving Repr, DecidableEq

end Json

inductive Json where
  | scalar (s : Json.Scalar)
  | array (items : List Json)
  | object (members : List (Option String × Json))
  deriving Repr

namespace Json

instance : Inhabited Json := ⟨.scalar .null⟩

def null : Json := .scalar .null

def bool (b : Bool) : Json := .scalar (.bool b)

def int (n : Int) : Json := .scalar (.int n)

def nat (n : Nat) : Json := int n

def string (text : String) : Json := .scalar (.string (some text))

/-- A missing text is written as `null`. -/
def optionalString : Option String → Json
  | none => null
  | some text => string text

def strings (texts : List String) : Json := .array (texts.map string)

/-- An object with the given members, in this order. -/
def record (members : List (String × Json)) : Json :=
  .object (members.map fun m => (some m.1, m.2))

/-! ## Reading values -/

def asString? : Json → Option String
  | .scalar (.string text) => text
  | _ => none

def asInt? : Json → Option Int
  | .scalar (.int n) => some n
  | _ => none

/-- Every key denotes a text, and no key of `names` occurs twice. -/
def members? (names : List String) : List (Option String × Json) → Option (List (String × Json))
  | [] => some []
  | (key, value) :: rest =>
    match key, members? names rest with
    | some name, some others =>
      if names.contains name && others.any (·.1 == name) then none
      else some ((name, value) :: others)
    | _, _ => none

/-- A value with the fields `names`: an object, or an array of their values in this order whose
last ones may be missing. -/
def record? (names : List String) : Json → Option (List (String × Json))
  | .object members => members? names members
  | .array items => if items.length ≤ names.length then some (names.zip items) else none
  | .scalar _ => none

end Json

end MavDialect
