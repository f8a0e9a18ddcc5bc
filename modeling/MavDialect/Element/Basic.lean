-- The declaration tree that a markup reader hands over: elements with attributes, text and
-- children in document order.
import MavDialect.CompileError
import MavDialect.SortedMap.Basic

namespace MavDialect

structure Element where
  name : String
  attributes : SortedMap String String
  text : Option String
  children : List Element

namespace Element

/-- An element that holds nothing. -/
def new (name : String) : Element := ⟨name, .empty, none, []⟩

instance : Inhabited Element := ⟨new ""⟩

/-- Sets an attribute; an earlier value is replaced. -/
def setAttribute (e : Element) (name value : String) : Element :=
  { e with attributes := e.attributes.insert name value }

def setText (e : Element) (text : String) : Element := { e with text := some text }

/-- Adds children after the ones that are there. -/
def addChildren (e : Element) (children : List Element) : Element :=
  { e with children := e.children ++ children }

def addChild (e : Element) (child : Element) : Element := e.addChildren [child]

/-! ## Access -/

def attribute? (e : Element) (name : String) : Option String := e.attributes.get? name

/-- An attribute the element must have. -/
def require (e : Element) (name : String) : Except CompileError String :=
  match e.attribute? name with
  | some value => .ok value
  | none => .error (.missingAttribute e.name name)

/-- A flag is set by the value `true` and by no other. -/
def isSet (e : Element) (name : String) : Bool := e.attribute? name == some "true"

/-- The children with this name, in document order. -/
def childrenWith (e : Element) (name : String) : List Element :=
  e.children.filter (·.name == name)

end Element

end MavDialect
