-- Compiling a dialect definition whose tree arrives as JSON text.
import MavDialect.Compile
import MavDialect.Element.Json

namespace MavDialect

/-- Why a text is refused: it holds no tree, or its tree cannot be compiled. -/
inductive TextError where
  | unreadable
  | refused (cause : CompileError)
  deriving Repr, DecidableEq

/-- Compiles the definition that a JSON text holds. -/
def compileText (options : Options) (name text : String) : Except TextError Dialect :=
  match Element.read? text with
  | none => .error .unreadable
  | some root =>
    match compile options name root with
    | .error cause => .error (.refused cause)
    | .ok d => .ok d

end MavDialect
